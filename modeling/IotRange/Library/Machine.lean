import Mathlib.Data.List.Basic
import Mathlib.Data.List.Chain
import Mathlib.Data.List.Forall2
import Mathlib.Data.List.Induction
import Mathlib.Order.Basic

/-! # Runs of deterministic input/output machines

A run is a fold over the inputs. Its situations pair every input with the state that met it,
so that counting and "at every step" are statements about one list. The rules are proved once:
invariants and progress, one-shot permits (counting), past obligations (`Since`) and unwinding
(two runs).
-/
namespace IotRange
set_option autoImplicit false

universe u v w

structure Machine (σ : Type u) (ι : Type v) (ο : Type w) where
  step : σ → ι → σ × ο

namespace Machine

variable {σ : Type u} {ι : Type v} {ο : Type w} (M : Machine σ ι ο)

def next (s : σ) (i : ι) : σ := (M.step s i).1

def output (s : σ) (i : ι) : ο := (M.step s i).2

def run (s : σ) (is : List ι) : σ := is.foldl M.next s

@[simp] theorem run_nil (s : σ) : M.run s [] = s := rfl

@[simp] theorem run_cons (s : σ) (i : ι) (is : List ι) : M.run s (i :: is) = M.run (M.next s i) is := rfl

@[simp] theorem run_append (s : σ) (is js : List ι) : M.run s (is ++ js) = M.run (M.run s is) js :=
  List.foldl_append

def situations (s : σ) : List ι → List (σ × ι)
  | [] => []
  | i :: is => (s, i) :: situations (M.next s i) is

@[simp] theorem situations_nil (s : σ) : M.situations s [] = [] := rfl

@[simp] theorem situations_cons (s : σ) (i : ι) (is : List ι) :
    M.situations s (i :: is) = (s, i) :: M.situations (M.next s i) is := rfl

@[simp] theorem situations_append (s : σ) (is js : List ι) :
    M.situations s (is ++ js) = M.situations s is ++ M.situations (M.run s is) js := by
  induction is generalizing s with
  | nil => rfl
  | cons i is ih => simp only [List.cons_append, situations_cons, ih, run_cons]

theorem mem_situations_iff {s : σ} {is : List ι} {p : σ × ι} :
    p ∈ M.situations s is ↔ ∃ pre post, is = pre ++ p.2 :: post ∧ p.1 = M.run s pre := by
  induction is generalizing s with
  | nil => simp
  | cons i is ih =>
    rw [situations_cons, List.mem_cons, ih]
    constructor
    · rintro (rfl | ⟨pre, post, rfl, hState⟩)
      · exact ⟨[], is, rfl, rfl⟩
      · exact ⟨i :: pre, post, rfl, hState⟩
    · rintro ⟨pre, post, hSplit, hState⟩
      cases pre with
      | nil =>
        obtain ⟨hi, -⟩ := List.cons.inj hSplit
        exact .inl (Prod.ext hState hi.symm)
      | cons j pre =>
        obtain ⟨rfl, rfl⟩ := List.cons.inj hSplit
        exact .inr ⟨pre, post, rfl, hState⟩

theorem countP_situations (p : ι → Bool) (s : σ) (is : List ι) :
    (M.situations s is).countP (fun q => p q.2) = is.countP p := by
  induction is generalizing s with
  | nil => rfl
  | cons i is ih => simp only [situations_cons, List.countP_cons, ih]

theorem forall_situations {p : ι → Prop} {s : σ} {is : List ι} (h : ∀ i ∈ is, p i) :
    ∀ q ∈ M.situations s is, p q.2 := by
  intro q hq
  obtain ⟨pre, post, rfl, -⟩ := M.mem_situations_iff.mp hq
  exact h q.2 (by simp)

/-! ## Invariants and progress -/

/-- An invariant that the situations of a kind preserve holds after every run through such situations. -/
theorem run_invariant_of_situations {I : σ → Prop} {Q : σ → ι → Prop}
    (hStep : ∀ s i, Q s i → I s → I (M.next s i)) (s : σ) (is : List ι)
    (hSituations : ∀ p ∈ M.situations s is, Q p.1 p.2) (h : I s) : I (M.run s is) := by
  induction is generalizing s with
  | nil => exact h
  | cons i is ih =>
    rw [situations_cons, List.forall_mem_cons] at hSituations
    exact ih (M.next s i) hSituations.2 (hStep s i hSituations.1 h)

theorem run_invariant_of {I : σ → Prop} {P : ι → Prop} (hStep : ∀ s i, P i → I s → I (M.next s i)) (s : σ)
    (is : List ι) (hInputs : ∀ i ∈ is, P i) (h : I s) : I (M.run s is) :=
  M.run_invariant_of_situations (Q := fun _ i => P i) hStep s is (M.forall_situations hInputs) h

theorem run_invariant {I : σ → Prop} (hStep : ∀ s i, I s → I (M.next s i)) (s : σ) (is : List ι)
    (h : I s) : I (M.run s is) :=
  M.run_invariant_of (P := fun _ => True) (fun s i _ => hStep s i) s is (fun _ _ => trivial) h

/-- If an invariant always allows a situation of a kind that lowers a measure, a run of such
situations reaches the goal. -/
theorem exists_run_of_measure {I G : σ → Prop} {Q : σ → ι → Prop} (μ : σ → Nat)
    (hStep : ∀ s, I s → ¬ G s → ∃ i, Q s i ∧ I (M.next s i) ∧ μ (M.next s i) < μ s) (s : σ) (h : I s) :
    ∃ is, (∀ p ∈ M.situations s is, Q p.1 p.2) ∧ G (M.run s is) := by
  induction hμ : μ s using Nat.strong_induction_on generalizing s with
  | _ n ih =>
    by_cases hGoal : G s
    · exact ⟨[], List.forall_mem_nil _, hGoal⟩
    · obtain ⟨i, hQ, hNext, hLess⟩ := hStep s h hGoal
      obtain ⟨is, hSituations, hReached⟩ := ih (μ (M.next s i)) (hμ ▸ hLess) (M.next s i) hNext rfl
      exact ⟨i :: is, List.forall_mem_cons.mpr ⟨hQ, hSituations⟩, hReached⟩

/-- Inputs that a goal waits for, in this order and with any other inputs in between: each awaited
input reaches the goal or leaves the rest to wait for, and the others change nothing about it. -/
theorem exists_situation_of_sublist {I : List ι → σ → Prop} {G : σ → ι → Prop} (hNil : ∀ s, ¬ I [] s)
    (hStep : ∀ s i rest, I (i :: rest) s → G s i ∨ I rest (M.next s i))
    (hWait : ∀ s i rest j, I (i :: rest) s → j ≠ i → G s j ∨ I (i :: rest) (M.next s j)) {awaited is : List ι}
    (hSublist : awaited.Sublist is) (s : σ) (h : I awaited s) : ∃ p ∈ M.situations s is, G p.1 p.2 := by
  classical
  induction is generalizing s awaited with
  | nil =>
    obtain rfl := List.sublist_nil.mp hSublist
    exact absurd h (hNil s)
  | cons j is ih =>
    have hLater (awaited : List ι) (hRest : awaited.Sublist is) (hNext : G s j ∨ I awaited (M.next s j)) :
        ∃ p ∈ M.situations s (j :: is), G p.1 p.2 := by
      rcases hNext with hNow | hNext
      · exact ⟨(s, j), List.mem_cons_self, hNow⟩
      · obtain ⟨p, hp, hGoal⟩ := ih hRest (M.next s j) hNext
        exact ⟨p, List.mem_cons_of_mem _ hp, hGoal⟩
    cases awaited with
    | nil => exact absurd h (hNil s)
    | cons i rest =>
      by_cases hSame : j = i
      · obtain rfl := hSame
        exact hLater rest (List.cons_sublist_cons.mp hSublist) (hStep s j rest h)
      · refine hLater (i :: rest) ?_ (hWait s i rest j h hSame)
        cases hSublist with
        | cons _ hRest => exact hRest
        | cons_cons => exact absurd rfl hSame

/-! ## One-shot permits

A permit is armed by some steps, is required by each use and is spent by it. -/

structure OneShot (armed : σ → Prop) (arms uses : σ → ι → Prop) : Prop where
  required : ∀ s i, uses s i → armed s
  spent : ∀ s i, uses s i → ¬ armed (M.next s i)
  armedOnly : ∀ s i, armed (M.next s i) → armed s ∨ arms s i

section OneShot

variable {M}
variable {armed : σ → Prop} {arms uses : σ → ι → Prop}

theorem OneShot.unarmed_run (h : M.OneShot armed arms uses) {s : σ} {is : List ι} (hs : ¬ armed s)
    (hArms : ∀ p ∈ M.situations s is, ¬ arms p.1 p.2) : ¬ armed (M.run s is) := by
  induction is generalizing s with
  | nil => exact hs
  | cons i is ih =>
    rw [situations_cons, List.forall_mem_cons] at hArms
    refine ih (fun hNext => ?_) hArms.2
    exact (h.armedOnly s i hNext).elim hs hArms.1

theorem OneShot.not_uses_of_unarmed (h : M.OneShot armed arms uses) {s : σ} {is : List ι} (hs : ¬ armed s)
    (hArms : ∀ p ∈ M.situations s is, ¬ arms p.1 p.2) : ∀ p ∈ M.situations s is, ¬ uses p.1 p.2 := by
  intro p hp hUses
  obtain ⟨pre, post, rfl, hState⟩ := M.mem_situations_iff.mp hp
  have hPre : ∀ q ∈ M.situations s pre, ¬ arms q.1 q.2 := by
    intro q hq
    apply hArms
    rw [situations_append]
    exact List.mem_append_left _ hq
  exact h.unarmed_run hs hPre (hState ▸ h.required p.1 p.2 hUses)

variable [DecidablePred armed] [DecidableRel arms] [DecidableRel uses]

def held (armed : σ → Prop) [DecidablePred armed] (s : σ) : Nat := if armed s then 1 else 0

theorem held_le_one (armed : σ → Prop) [DecidablePred armed] (s : σ) : held armed s ≤ 1 := by
  unfold held
  split <;> decide

/-- Every use pays for itself with an arming step, up to the permit held at the start. -/
theorem OneShot.countP_uses_le (h : M.OneShot armed arms uses) (s : σ) (is : List ι) :
    (M.situations s is).countP (fun p => uses p.1 p.2) + held armed (M.run s is) ≤
      (M.situations s is).countP (fun p => arms p.1 p.2) + held armed s := by
  induction is generalizing s with
  | nil => simp
  | cons i is ih =>
    have hRest := ih (M.next s i)
    have hOne : (if uses s i then 1 else 0) + held armed (M.next s i) ≤
        (if arms s i then 1 else 0) + held armed s := by
      unfold held
      by_cases hUses : uses s i
      · rw [if_pos hUses, if_neg (h.spent s i hUses), if_pos (h.required s i hUses)]
        omega
      · rw [if_neg hUses]
        by_cases hNext : armed (M.next s i)
        · rcases h.armedOnly s i hNext with hArmed | hArms
          · rw [if_pos hNext, if_pos hArmed]; omega
          · rw [if_pos hNext, if_pos hArms]; omega
        · rw [if_neg hNext]; omega
    simp only [situations_cons, List.countP_cons, run_cons, decide_eq_true_eq]
    omega

theorem OneShot.countP_uses_le_one (h : M.OneShot armed arms uses) (s : σ) (is : List ι)
    (hArms : ∀ p ∈ M.situations s is, ¬ arms p.1 p.2) :
    (M.situations s is).countP (fun p => uses p.1 p.2) ≤ 1 := by
  have hCount := h.countP_uses_le s is
  have hZero : (M.situations s is).countP (fun p => arms p.1 p.2) = 0 := by
    rw [List.countP_eq_zero]
    intro p hp
    simpa using hArms p hp
  have hStart := held_le_one armed s
  omega

end OneShot

/-! ## Unwinding

Two runs, the second without the hidden inputs, are related by a relation that may weaken as the
clock of the inputs advances. -/

def observe {ω : Type*} (see : σ → ι → List ω) (s : σ) (is : List ι) : List ω :=
  (M.situations s is).flatMap fun p => see p.1 p.2

theorem observe_concat {ω : Type*} (see : σ → ι → List ω) (s : σ) (is : List ι) (i : ι) :
    M.observe see s (is ++ [i]) = M.observe see s is ++ see (M.run s is) i := by
  rw [observe, situations_append, List.flatMap_append, situations_cons, situations_nil, List.flatMap_singleton]
  rfl

/-- What has come in and is not held has gone out, in the same order. -/
theorem observe_balance_of_situations {ω : Type*} {Q : σ → ι → Prop} {come gone : σ → ι → List ω} {held : σ → List ω}
    (hBalance : ∀ s i, Q s i → held s ++ come s i = gone s i ++ held (M.next s i)) (s : σ) (is : List ι)
    (hSituations : ∀ p ∈ M.situations s is, Q p.1 p.2) :
    held s ++ M.observe come s is = M.observe gone s is ++ held (M.run s is) := by
  induction is using List.reverseRecOn with
  | nil => exact List.append_nil _
  | append_singleton is i ih =>
    rw [situations_append, List.forall_mem_append] at hSituations
    have hLast : Q (M.run s is) i := hSituations.2 (M.run s is, i) List.mem_cons_self
    rw [observe_concat, observe_concat, ← List.append_assoc, ih hSituations.1, List.append_assoc,
      hBalance _ i hLast, List.append_assoc, run_append, run_cons, run_nil]

theorem observe_balance {ω : Type*} {I : σ → Prop} {come gone : σ → ι → List ω} {held : σ → List ω}
    (hStep : ∀ s i, I s → I (M.next s i))
    (hBalance : ∀ s i, I s → held s ++ come s i = gone s i ++ held (M.next s i)) (s : σ) (is : List ι) (h : I s) :
    held s ++ M.observe come s is = M.observe gone s is ++ held (M.run s is) := by
  refine M.observe_balance_of_situations (Q := fun s _ => I s) hBalance s is fun p hp => ?_
  obtain ⟨pre, -, -, hState⟩ := M.mem_situations_iff.mp hp
  exact hState ▸ M.run_invariant hStep s pre h

theorem mem_observe_iff {ω : Type*} {see : σ → ι → List ω} {s : σ} {is : List ι} {x : ω} :
    x ∈ M.observe see s is ↔ ∃ pre i post, is = pre ++ i :: post ∧ x ∈ see (M.run s pre) i := by
  rw [observe, List.mem_flatMap]
  constructor
  · rintro ⟨p, hp, hx⟩
    obtain ⟨pre, post, hSplit, hState⟩ := M.mem_situations_iff.mp hp
    exact ⟨pre, p.2, post, hSplit, hState ▸ hx⟩
  · rintro ⟨pre, i, post, hSplit, hx⟩
    exact ⟨(M.run s pre, i), M.mem_situations_iff.mpr ⟨pre, post, hSplit, rfl⟩, hx⟩

/-- An account whose balance each step keeps, with deposits, payments and losses. -/
theorem count_balance {ω : Type*} [DecidableEq ω] (see : σ → ι → List ω) (paid drawn : ω) (held : σ → Nat)
    {lost : σ → ι → Prop} [DecidableRel lost]
    (hStep : ∀ s i, held s + (see s i).count paid =
      (see s i).count drawn + (if lost s i then 1 else 0) + held (M.next s i)) (s : σ) (is : List ι) :
    held s + (M.observe see s is).count paid =
      (M.observe see s is).count drawn + (M.situations s is).countP (fun p => lost p.1 p.2) + held (M.run s is) := by
  induction is using List.reverseRecOn with
  | nil => simp [observe]
  | append_singleton is i ih =>
    have hLast := hStep (M.run s is) i
    have hLost : (M.situations s (is ++ [i])).countP (fun p => lost p.1 p.2) =
        (M.situations s is).countP (fun p => lost p.1 p.2) + if lost (M.run s is) i then 1 else 0 := by
      simp [List.countP_cons]
    rw [observe_concat, List.count_append, List.count_append, hLost, run_append, run_cons, run_nil]
    omega

section Unwinding

variable {M}
variable {τ ω : Type*}

def lastClock (clock : ι → τ) (t : τ) (is : List ι) : τ := (is.map clock).getLastD t

@[simp] theorem lastClock_cons (clock : ι → τ) (t : τ) (i : ι) (is : List ι) :
    lastClock clock t (i :: is) = lastClock clock (clock i) is := by
  cases is <;> rfl

variable [Preorder τ] {clock : ι → τ} {visible : ι → Prop} [DecidablePred visible]
variable {allowed : σ → ι → Prop} {see : σ → ι → List ω}

structure Unwinding (M : Machine σ ι ο) (clock : ι → τ) (visible : ι → Prop) (allowed : σ → ι → Prop)
    (see : σ → ι → List ω) (R : τ → σ → σ → Prop) (E : ω → ω → Prop) : Prop where
  hidden : ∀ t s s' i, R t s s' → t ≤ clock i → allowed s i → ¬ visible i →
    see s i = [] ∧ R (clock i) (M.next s i) s'
  visible : ∀ t s s' i, R t s s' → t ≤ clock i → allowed s i → visible i →
    List.Forall₂ E (see s i) (see s' i) ∧ R (clock i) (M.next s i) (M.next s' i)

theorem forall₂_append {α β : Type*} {E : α → β → Prop} {xs xs' : List α} {ys ys' : List β}
    (h : List.Forall₂ E xs ys) (h' : List.Forall₂ E xs' ys') : List.Forall₂ E (xs ++ xs') (ys ++ ys') := by
  induction h with
  | nil => exact h'
  | cons hxy _ ih => exact .cons hxy ih

/-- Deleting the hidden inputs changes what is observed, and the final state, only up to the relation. -/
theorem Unwinding.run {R : τ → σ → σ → Prop} {E : ω → ω → Prop}
    (h : Unwinding M clock visible allowed see R E) {t : τ} {s s' : σ} {is : List ι} (hR : R t s s')
    (hClock : (t :: is.map clock).IsChain (· ≤ ·)) (hAllowed : ∀ p ∈ M.situations s is, allowed p.1 p.2) :
    List.Forall₂ E (M.observe see s is) (M.observe see s' (is.filter visible)) ∧
      R (lastClock clock t is) (M.run s is) (M.run s' (is.filter visible)) := by
  induction is generalizing t s s' with
  | nil => exact ⟨.nil, hR⟩
  | cons i is ih =>
    rw [List.map_cons, List.isChain_cons_cons] at hClock
    rw [situations_cons, List.forall_mem_cons] at hAllowed
    rw [lastClock_cons]
    by_cases hVisible : visible i
    · obtain ⟨hSee, hNext⟩ := h.visible t s s' i hR hClock.1 hAllowed.1 hVisible
      obtain ⟨hRest, hFinal⟩ := ih hNext hClock.2 hAllowed.2
      rw [List.filter_cons_of_pos (by simpa using hVisible)]
      exact ⟨forall₂_append hSee hRest, hFinal⟩
    · obtain ⟨hSee, hNext⟩ := h.hidden t s s' i hR hClock.1 hAllowed.1 hVisible
      obtain ⟨hRest, hFinal⟩ := ih hNext hClock.2 hAllowed.2
      rw [List.filter_cons_of_neg (by simpa using hVisible)]
      refine ⟨?_, hFinal⟩
      rw [observe, situations_cons, List.flatMap_cons, hSee, List.nil_append]
      exact hRest

end Unwinding

end Machine

/-! ## Past obligations over histories -/

namespace History

variable {ι : Type v}

/-- At some past step `P` held, and at every step after it `Q` did. Both see the inputs before their step. -/
def Since (P Q : List ι → ι → Prop) (is : List ι) : Prop :=
  ∃ pre i post, is = pre ++ i :: post ∧ P pre i ∧
    ∀ mid j rest, post = mid ++ j :: rest → Q (pre ++ i :: mid) j

theorem Since.imp {P P' Q Q' : List ι → ι → Prop} {is : List ι} (h : Since P Q is) (hP : ∀ pre i, P pre i → P' pre i)
    (hQ : ∀ pre i, Q pre i → Q' pre i) : Since P' Q' is := by
  obtain ⟨pre, i, post, hSplit, hNow, hPost⟩ := h
  exact ⟨pre, i, post, hSplit, hP pre i hNow, fun mid j rest hRest => hQ _ j (hPost mid j rest hRest)⟩

theorem since_concat_of_now {P Q : List ι → ι → Prop} {is : List ι} {i : ι} (h : P is i) :
    Since P Q (is ++ [i]) :=
  ⟨is, i, [], rfl, h, fun mid j rest hEmpty => by simp at hEmpty⟩

theorem since_concat_of_before {P Q : List ι → ι → Prop} {is : List ι} {i : ι} (h : Since P Q is)
    (hQ : Q is i) : Since P Q (is ++ [i]) := by
  obtain ⟨pre, k, post, rfl, hP, hPost⟩ := h
  refine ⟨pre, k, post ++ [i], by simp, hP, ?_⟩
  intro mid j rest hSplit
  rcases List.eq_nil_or_concat rest with rfl | ⟨rest, l, rfl⟩
  · obtain ⟨rfl, hj⟩ := List.append_inj' hSplit rfl
    obtain rfl := List.singleton_inj.mp hj
    exact hQ
  · refine hPost mid j rest ?_
    rw [List.concat_eq_append, ← List.cons_append, ← List.append_assoc] at hSplit
    exact (List.append_inj' hSplit rfl).1

/-- A condition that only `P` can raise, and that falls when `Q` fails, holds only since `P`. -/
theorem since_of_raised {P Q : List ι → ι → Prop} (raised : List ι → Prop) (hNil : ¬ raised [])
    (hStep : ∀ is i, raised (is ++ [i]) → P is i ∨ (raised is ∧ Q is i)) (is : List ι)
    (h : raised is) : Since P Q is := by
  induction is using List.reverseRecOn with
  | nil => exact absurd h hNil
  | append_singleton is i ih =>
    rcases hStep is i h with hP | ⟨hRaised, hQ⟩
    · exact since_concat_of_now hP
    · exact since_concat_of_before (ih hRaised) hQ

theorem raised_of_since {P Q : List ι → ι → Prop} (raised : List ι → Prop)
    (hRaise : ∀ is i, P is i → raised (is ++ [i]))
    (hKeep : ∀ is i, raised is → Q is i → raised (is ++ [i])) {is : List ι} (h : Since P Q is) : raised is := by
  obtain ⟨pre, i, post, rfl, hP, hPost⟩ := h
  induction post using List.reverseRecOn with
  | nil => exact hRaise pre i hP
  | append_singleton post j ih =>
    have hBefore : raised (pre ++ i :: post) := by
      refine ih fun mid k rest hSplit => hPost mid k (rest ++ [j]) ?_
      rw [hSplit, List.append_assoc, List.cons_append]
    have hLast := hKeep _ j hBefore (hPost post j [] rfl)
    rwa [List.append_assoc, List.cons_append] at hLast

end History

end IotRange
