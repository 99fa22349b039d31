import Mathlib.Data.List.Range

/-! # Results with a log

A computation gives a value and the events on the way to it. Its value is computed as without the
log, and a property of all events is checked along the binds.
-/
namespace IotRange
set_option autoImplicit false

universe u v

structure Traced (ε : Type u) (α : Type v) where
  value : α
  trace : List ε

namespace Traced

variable {ε : Type u} {α β : Type v}

instance : Monad (Traced ε) where
  pure a := ⟨a, []⟩
  bind x f := ⟨(f x.value).value, x.trace ++ (f x.value).trace⟩

/-- Bind for a continuation that needs to know where its argument comes from. -/
def bindWith (x : Traced ε α) (f : (a : α) → x.value = a → Traced ε β) : Traced ε β :=
  ⟨(f x.value rfl).value, x.trace ++ (f x.value rfl).trace⟩

@[simp] theorem value_pure (a : α) : (pure a : Traced ε α).value = a := rfl

@[simp] theorem value_bind (x : Traced ε α) (f : α → Traced ε β) : (x >>= f).value = (f x.value).value := rfl

@[simp] theorem value_ite (c : Prop) [Decidable c] (x y : Traced ε α) :
    (if c then x else y).value = if c then x.value else y.value := by
  split <;> rfl

theorem bindWith_eq_bind {x : Traced ε α} {f : (a : α) → x.value = a → Traced ε β} {g : α → Traced ε β}
    (h : ∀ a ha, f a ha = g a) : x.bindWith f = x >>= g := by
  change (⟨_, _⟩ : Traced ε β) = ⟨_, _⟩
  rw [h]

/-! ## Properties of all events -/

def Within (P : ε → Prop) (x : Traced ε α) : Prop := ∀ e ∈ x.trace, P e

section Within

variable {P Q : ε → Prop}

theorem within_pure (a : α) : (pure a : Traced ε α).Within P := List.forall_mem_nil _

theorem Within.bind {x : Traced ε α} {f : α → Traced ε β} (hx : x.Within P) (hf : (f x.value).Within P) :
    (x >>= f).Within P := by
  intro e he
  exact (List.mem_append.mp he).elim (hx e) (hf e)

theorem Within.imp {x : Traced ε α} (h : ∀ e, P e → Q e) (hx : x.Within P) : x.Within Q :=
  fun e he => h e (hx e he)

end Within

end Traced

end IotRange
