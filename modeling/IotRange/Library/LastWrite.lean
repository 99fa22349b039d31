import Mathlib.Data.List.Induction

/-! # Views of a sequence of writes

Each write either determines a view of the state or leaves it alone. The view after a sequence is
then what the last determining write says, or the old view when there is none.
-/
namespace IotRange.LastWrite
set_option autoImplicit false

universe u v w

variable {σ : Type u} {τ : Type v} {ν : Type w}

def lastSome (effect : τ → Option ν) (ts : List τ) : Option ν := (ts.filterMap effect).getLast?

theorem lastSome_concat (effect : τ → Option ν) (ts : List τ) (t : τ) :
    lastSome effect (ts ++ [t]) = (effect t).or (lastSome effect ts) := by
  rw [lastSome, List.filterMap_append]
  cases hEffect : effect t with
  | none => simp [hEffect, lastSome]
  | some value => simp [hEffect]

/-- Writes that determine the view when they satisfy `p`: the last such write decides. -/
theorem lastSome_ite (p : τ → Prop) [DecidablePred p] (value : τ → ν) (ts : List τ) :
    lastSome (fun t => if p t then some (value t) else none) ts = (ts.filter p).getLast?.map value := by
  have hMap : ts.filterMap (fun t => if p t then some (value t) else none) = (ts.filter p).map value := by
    induction ts with
    | nil => rfl
    | cons t ts ih =>
      by_cases hp : p t <;> simp [hp, ih]
  rw [lastSome, hMap, List.getLast?_map]

theorem lastSome_none (ts : List τ) : lastSome (fun _ => (none : Option ν)) ts = none := by
  simp [lastSome]

theorem view_foldl {view : σ → ν} {write : σ → τ → σ} {effect : τ → Option ν} {ts : List τ} (s : σ)
    (h : ∀ t ∈ ts, ∀ s, view (write s t) = (effect t).getD (view s)) :
    view (ts.foldl write s) = (lastSome effect ts).getD (view s) := by
  induction ts using List.reverseRecOn with
  | nil => rfl
  | append_singleton ts t ih =>
    have hInit := ih fun u hu => h u (List.mem_append_left _ hu)
    rw [List.foldl_append, List.foldl_cons, List.foldl_nil, h t (by simp), hInit, lastSome_concat]
    cases effect t <;> rfl

end IotRange.LastWrite
