import Mathlib.Data.List.Basic

/-!
Writing a block into a fixed memory, and reading a window of it. A memory is a
list, a block is stored at a position, and a window is given by its position and
its length.
-/

namespace Splice

variable {α : Type*}

def store (memory : List α) (position : Nat) (block : List α) : List α :=
  memory.take position ++ block ++ memory.drop (position + block.length)

def window (memory : List α) (position length : Nat) : List α :=
  (memory.drop position).take length

@[simp] theorem store_nil (memory : List α) (position : Nat) :
    store memory position [] = memory := by
  simp [store]

theorem store_length {memory block : List α} {position : Nat}
    (fits : position + block.length ≤ memory.length) :
    (store memory position block).length = memory.length := by
  simp only [store, List.length_append, List.length_take, List.length_drop]
  omega

theorem store_take {memory block : List α} {position : Nat} (inside : position ≤ memory.length) :
    (store memory position block).take position = memory.take position := by
  simp [store, inside]

theorem store_take_end {memory : List α} (block : List α) {position : Nat}
    (inside : position ≤ memory.length) :
    (store memory position block).take (position + block.length) =
      memory.take position ++ block := by
  have size : (memory.take position ++ block).length = position + block.length := by
    simp [inside]
  rw [store, ← size, List.take_left]

theorem store_drop_end {memory : List α} (block : List α) {position : Nat}
    (inside : position ≤ memory.length) :
    (store memory position block).drop (position + block.length) =
      memory.drop (position + block.length) := by
  have size : (memory.take position ++ block).length = position + block.length := by
    simp [inside]
  rw [store, ← size, List.drop_left]

@[simp] theorem window_zero (memory : List α) (position : Nat) : window memory position 0 = [] := by
  simp [window]

theorem window_length {memory : List α} {position length : Nat}
    (inside : position + length ≤ memory.length) : (window memory position length).length = length := by
  simp only [window, List.length_take, List.length_drop]
  omega

theorem window_take (memory : List α) (position length count : Nat) :
    (window memory position length).take count = window memory position (min count length) := by
  simp [window, List.take_take]

theorem window_drop (memory : List α) (position length count : Nat) :
    (window memory position length).drop count =
      window memory (position + count) (length - count) := by
  simp [window, List.drop_take, List.drop_drop]

theorem window_append (memory : List α) (position first second : Nat) :
    window memory position first ++ window memory (position + first) second =
      window memory position (first + second) := by
  simp [window, List.take_add, List.drop_drop]

theorem window_of_take {size start length : Nat} (below : start + length ≤ size)
    (memory : List α) : window (memory.take size) start length = window memory start length := by
  simp only [window, List.drop_take, List.take_take]
  congr 1
  omega

theorem window_store_below {memory block : List α} {position start length : Nat}
    (inside : position ≤ memory.length) (below : start + length ≤ position) :
    window (store memory position block) start length = window memory start length := by
  rw [← window_of_take below, store_take inside, window_of_take below]

theorem window_store_same {memory block : List α} {position count : Nat}
    (inside : position ≤ memory.length) (within : count ≤ block.length) :
    window (store memory position block) position count = block.take count := by
  have size : (memory.take position).length = position := by simp [inside]
  rw [window, store, List.append_assoc, List.drop_append_of_le_length (by omega),
    List.drop_eq_nil_of_le (by omega), List.nil_append, List.take_append_of_le_length within]

theorem store_window_take (memory content : List α) (position : Nat) :
    (store memory 0 (window content position (min memory.length (content.length - position)))).take
        (min memory.length (content.length - position)) =
      (content.drop position).take memory.length := by
  have size : (window content position (min memory.length (content.length - position))).length =
      min memory.length (content.length - position) := by
    simp only [window, List.length_take, List.length_drop]
    omega
  have stored := store_take_end
    (window content position (min memory.length (content.length - position)))
    (Nat.zero_le memory.length)
  rw [Nat.zero_add, size] at stored
  rw [stored, List.take_zero, List.nil_append, window, ← List.length_drop, ← List.take_eq_take_min]

theorem store_getD {memory block : List α} {position : Nat} (inside : position ≤ memory.length)
    (index : Nat) (fallback : α) : (store memory position block).getD index fallback =
      if position ≤ index ∧ index < position + block.length then
        block.getD (index - position) fallback
      else memory.getD index fallback := by
  have front : (memory.take position).length = position := by simp [inside]
  simp only [store, List.getD_eq_getElem?_getD]
  by_cases before : index < position
  · rw [if_neg (by omega), List.append_assoc, List.getElem?_append_left (by omega),
      List.getElem?_take_of_lt before]
  · rw [List.append_assoc, List.getElem?_append_right (by omega), front]
    by_cases within : index < position + block.length
    · rw [if_pos (by omega), List.getElem?_append_left (by omega)]
    · rw [if_neg (by omega), List.getElem?_append_right (by omega), List.getElem?_drop]
      congr 2
      omega

end Splice
