import Mathlib.Data.List.Basic

/-!
A stream that comes in pieces, and the pieces behind a part of it.
-/

namespace Pieces

variable {α : Type*}

def behind : List (List α) → Nat → List (List α)
  | [], _ => []
  | piece :: rest, count =>
      if count < piece.length then piece.drop count :: rest else behind rest (count - piece.length)

theorem behind_zero {pieces : List (List α)} (some_ : ∀ piece ∈ pieces, piece ≠ []) :
    behind pieces 0 = pieces := by
  cases pieces with
  | nil => rfl
  | cons piece rest =>
      have positive := List.length_pos_iff.mpr (some_ piece (by simp))
      rw [behind, if_pos positive, List.drop_zero]

theorem behind_append (front back : List (List α)) (count : Nat) :
    behind (front ++ back) (front.flatten.length + count) = behind back count := by
  induction front with
  | nil => simp
  | cons piece rest ih =>
      rw [List.cons_append, behind, List.flatten_cons, List.length_append, if_neg (by omega), ← ih]
      congr 1
      omega

end Pieces
