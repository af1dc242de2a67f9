import CoServer.Foundation.Transition
import Mathlib.Algebra.GroupWithZero.Nat

/-!
A bounded first-in first-out queue as a transition system. Blocks enter at the
back while there is room for them, and counts leave at the front.
-/

namespace Fifo

open Transition

variable {α : Type*} {capacity : Nat}

structure Queue (α : Type*) (capacity : Nat) where
  items : List α
  bounded : items.length ≤ capacity

def Queue.empty : Queue α capacity := ⟨[], Nat.zero_le _⟩

inductive Event (α : Type*)
  | entered (block : List α)
  | left (count : Nat)

inductive Step : Queue α capacity → List (Event α) → Queue α capacity → Prop
  | enter {queue next : Queue α capacity} {block : List α} : next.items = queue.items ++ block →
      Step queue [.entered block] next
  | leave {queue next : Queue α capacity} {count : Nat} : count ≤ queue.items.length →
      next.items = queue.items.drop count → Step queue [.left count] next

def enteredItems (events : List (Event α)) : List α :=
  events.flatMap fun
    | .entered block => block
    | .left _ => []

def leftCount (events : List (Event α)) : Nat :=
  (events.map fun
    | .entered _ => 0
    | .left count => count).sum

@[simp] theorem enteredItems_append (before after : List (Event α)) :
    enteredItems (before ++ after) = enteredItems before ++ enteredItems after := by
  simp [enteredItems]

@[simp] theorem enteredItems_entered (block : List α) : enteredItems [.entered block] = block := by
  simp [enteredItems]

@[simp] theorem enteredItems_left (count : Nat) : enteredItems [(.left count : Event α)] = [] := rfl

@[simp] theorem leftCount_append (before after : List (Event α)) :
    leftCount (before ++ after) = leftCount before + leftCount after := by
  simp [leftCount]

@[simp] theorem leftCount_entered (block : List α) : leftCount [.entered block] = 0 := rfl

@[simp] theorem leftCount_left (count : Nat) : leftCount [(.left count : Event α)] = count := rfl

theorem run_items {events : List (Event α)} {queue : Queue α capacity}
    (run : Run Step Queue.empty events queue) :
    leftCount events ≤ (enteredItems events).length ∧
      queue.items = (enteredItems events).drop (leftCount events) := by
  induction run with
  | refl => exact ⟨Nat.le_refl 0, rfl⟩
  | snoc _ taken ih =>
      obtain ⟨within, held⟩ := ih
      cases taken with
      | enter entered =>
          simp only [enteredItems_append, enteredItems_entered, leftCount_append, leftCount_entered,
            Nat.add_zero, List.length_append]
          exact ⟨by omega, by rw [entered, held, List.drop_append_of_le_length within]⟩
      | leave fewer rest =>
          rw [held, List.length_drop] at fewer
          simp only [enteredItems_append, enteredItems_left, leftCount_append, leftCount_left,
            List.append_nil]
          exact ⟨by omega, by rw [rest, held, List.drop_drop]⟩

end Fifo
