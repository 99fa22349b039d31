import IotRange.Library.Machine
import Mathlib.Data.List.Induction

/-! # A queue of messages and a mailbox with one slot

The queue is what a sender expects: messages leave in the order in which they came. One slot is
that queue as long as no message is put on another one.
-/
namespace IotRange.Mailbox
set_option autoImplicit false

universe u v w x

/-- `drop` is the end of the first message, `clear` the end of all of them. -/
inductive Op (α : Type u)
  | keep
  | put (message : α)
  | drop
  | clear

variable {α : Type u}

def queue (messages : List α) : Op α → List α
  | .keep => messages
  | .put message => messages ++ [message]
  | .drop => messages.tail
  | .clear => []

def slot (held : Option α) : Op α → Option α
  | .keep => held
  | .put message => some message
  | .drop => none
  | .clear => none

def Fits (held : Option α) (op : Op α) : Prop := ∀ message, op = .put message → held = none

theorem toList_slot_iff {held : Option α} {op : Op α} :
    (slot held op).toList = queue held.toList op ↔ Fits held op := by
  cases op with
  | keep => exact ⟨fun _ => nofun, fun _ => rfl⟩
  | put message =>
    cases held with
    | none => exact ⟨fun _ _ _ => rfl, fun _ => rfl⟩
    | some old =>
      constructor
      · intro hSame
        cases congrArg List.length hSame
      · intro hFits
        cases hFits message rfl
  | drop => cases held <;> exact ⟨fun _ => nofun, fun _ => rfl⟩
  | clear => exact ⟨fun _ => nofun, fun _ => rfl⟩

/-! ## Machines that hold one message -/

section Holds

variable {σ : Type v} {ι : Type w} {ο : Type x} {M : Machine σ ι ο} {held : σ → Option α} {op : σ → ι → Op α}

/-- Each step of the machine is an operation on the slot. -/
def Holds (M : Machine σ ι ο) (held : σ → Option α) (op : σ → ι → Op α) : Prop :=
  ∀ s i, held (M.next s i) = slot (held s) (op s i)

/-- What the queue holds after a run. -/
def queued (M : Machine σ ι ο) (op : σ → ι → Op α) (s : σ) (messages : List α) (is : List ι) : List α :=
  ((M.situations s is).map fun p => op p.1 p.2).foldl queue messages

theorem queued_concat (s : σ) (messages : List α) (is : List ι) (i : ι) :
    queued M op s messages (is ++ [i]) = queue (queued M op s messages is) (op (M.run s is) i) := by
  rw [queued, Machine.situations_append, List.map_append, List.foldl_append]
  rfl

/-- The slot is the queue along a whole run exactly if no message of the run is put on another one. -/
theorem Holds.queued_iff (h : Holds M held op) (s : σ) (is : List ι) :
    (∀ pre, pre <+: is → (held (M.run s pre)).toList = queued M op s (held s).toList pre) ↔
      ∀ p ∈ M.situations s is, Fits (held p.1) (op p.1 p.2) := by
  induction is using List.reverseRecOn with
  | nil =>
    constructor
    · exact fun _ => nofun
    · intro _ pre hPre
      obtain rfl := List.prefix_nil.mp hPre
      rfl
  | append_singleton is i ih =>
    have hLast : (held (M.run s (is ++ [i]))).toList = (slot (held (M.run s is)) (op (M.run s is) i)).toList := by
      rw [Machine.run_append, Machine.run_cons, Machine.run_nil, h]
    rw [Machine.situations_append, List.forall_mem_append, ← ih]
    constructor
    · intro hAll
      have hInit : ∀ pre, pre <+: is → (held (M.run s pre)).toList = queued M op s (held s).toList pre :=
        fun pre hPre => hAll pre (hPre.trans (List.prefix_append is [i]))
      refine ⟨hInit, ?_⟩
      have hNow := hAll (is ++ [i]) List.prefix_rfl
      rw [hLast, queued_concat, ← hInit is List.prefix_rfl] at hNow
      intro p hp
      obtain rfl := List.mem_singleton.mp hp
      exact toList_slot_iff.mp hNow
    · rintro ⟨hInit, hFits⟩ pre hPre
      obtain rfl | hBefore := List.prefix_concat_iff.mp hPre
      · rw [hLast, queued_concat, ← hInit is List.prefix_rfl]
        exact toList_slot_iff.mpr (hFits (M.run s is, i) List.mem_cons_self)
      · exact hInit pre hBefore

/-- The message held is the last one put, and it has been left alone since. -/
theorem Holds.since_put (h : Holds M held op) {s : σ} (hEmpty : held s = none) {is : List ι} {message : α}
    (hHeld : held (M.run s is) = some message) :
    History.Since (fun pre i => op (M.run s pre) i = .put message) (fun pre i => op (M.run s pre) i = .keep) is := by
  refine History.since_of_raised (fun pre => held (M.run s pre) = some message) ?_ ?_ is hHeld
  · rw [Machine.run_nil, hEmpty]
    nofun
  · intro pre i hNext
    rw [Machine.run_append, Machine.run_cons, Machine.run_nil, h] at hNext
    cases hOp : op (M.run s pre) i with
    | keep =>
      rw [hOp] at hNext
      exact .inr ⟨hNext, rfl⟩
    | put newer =>
      rw [hOp] at hNext
      exact .inl (congrArg Op.put (Option.some.inj hNext))
    | drop | clear =>
      rw [hOp] at hNext
      cases hNext

/-- A message in the slot is a permit for one `drop`. -/
theorem Holds.oneShot (h : Holds M held op) {uses : σ → ι → Prop} (hRequired : ∀ s i, uses s i → held s ≠ none)
    (hSpent : ∀ s i, uses s i → op s i = .drop) :
    M.OneShot (fun s => held s ≠ none) (fun s i => ∃ message, op s i = .put message) uses where
  required := hRequired
  spent s i hUses := by
    rw [h, hSpent s i hUses]
    exact not_not.mpr rfl
  armedOnly s i hNext := by
    rw [h] at hNext
    cases hOp : op s i with
    | keep =>
      rw [hOp] at hNext
      exact .inl hNext
    | put message => exact .inr ⟨message, rfl⟩
    | drop | clear =>
      rw [hOp] at hNext
      exact absurd rfl hNext

end Holds

end IotRange.Mailbox
