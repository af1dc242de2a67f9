import Mathlib.Data.Nat.Basic

/-!
Loops as rounds on a state. A round yields the next state, or none where the
condition of the loop fails; a loop ends in the state in which it does.
-/

namespace Loop

variable {State : Type*}

inductive Ends (round : State → Option State) : State → State → Prop
  | stop {state} : round state = none → Ends round state state
  | next {state after last} : round state = some after → Ends round after last →
      Ends round state last

variable {round : State → Option State}

theorem Ends.unique {state last last' : State} (ends : Ends round state last)
    (ends' : Ends round state last') : last = last' := by
  induction ends with
  | stop none_ =>
      cases ends' with
      | stop _ => rfl
      | next some_ _ =>
          rw [none_] at some_
          cases some_
  | next some_ _ ih =>
      cases ends' with
      | stop none_ =>
          rw [none_] at some_
          cases some_
      | next some_' later =>
          rw [some_] at some_'
          cases some_'
          exact ih later

theorem ends_of_decreasing (measure : State → Nat)
    (decreases : ∀ state after, round state = some after → measure after < measure state)
    (state : State) : ∃ last, Ends round state last := by
  generalize size : measure state = count
  induction count using Nat.strongRecOn generalizing state with
  | _ count ih =>
      cases next : round state with
      | none => exact ⟨state, .stop next⟩
      | some after =>
          obtain ⟨last, ends⟩ := ih _ (size ▸ decreases state after next) after rfl
          exact ⟨last, .next next ends⟩

end Loop
