import Mathlib.Logic.Basic

/-!
Computations with the accesses they make. One without a value has stopped at an
access that is undefined or throws.
-/

structure Traced (Access α : Type) where
  accesses : List Access
  value : Option α

namespace Traced

variable {Access α β : Type}

instance : Monad (Traced Access) where
  pure value := ⟨[], some value⟩
  bind first next :=
    match first.value with
    | none => ⟨first.accesses, none⟩
    | some value => ⟨first.accesses ++ (next value).accesses, (next value).value⟩

@[simp] theorem value_pure (value : α) : (pure value : Traced Access α).value = some value := rfl

@[simp] theorem value_bind (first : Traced Access α) (next : α → Traced Access β) :
    (first >>= next).value = first.value.bind fun value => (next value).value := by
  show (match first.value with
    | none => (⟨first.accesses, none⟩ : Traced Access β)
    | some value => ⟨first.accesses ++ (next value).accesses, (next value).value⟩).value = _
  cases first.value <;> rfl

/-- Every access that is made is allowed. -/
def Safe (allowed : Access → Prop) (traced : Traced Access α) : Prop :=
  ∀ access ∈ traced.accesses, allowed access

variable {allowed : Access → Prop}

@[simp] theorem safe_pure (value : α) : Safe allowed (pure value : Traced Access α) := by
  intro access member
  cases member

@[simp] theorem safe_bind (first : Traced Access α) (next : α → Traced Access β) :
    Safe allowed (first >>= next) ↔
      Safe allowed first ∧ ∀ value, first.value = some value → Safe allowed (next value) := by
  have accesses : (first >>= next).accesses = (match first.value with
    | none => (⟨first.accesses, none⟩ : Traced Access β)
    | some value => ⟨first.accesses ++ (next value).accesses, (next value).value⟩).accesses := rfl
  rw [Safe, accesses]
  cases outcome : first.value with
  | none => simp [Safe]
  | some value =>
      simp only [Safe, List.mem_append, Option.some.injEq, forall_eq']
      constructor
      · intro all
        exact ⟨fun access member => all access (Or.inl member),
          fun access member => all access (Or.inr member)⟩
      · rintro ⟨before, after⟩ access (member | member)
        · exact before access member
        · exact after access member

end Traced
