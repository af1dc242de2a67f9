import Mathlib.Data.List.Basic

/-!
Patterns over sequences of segments: a literal matches an equal segment, a
parameter any one segment, and a wildcard any one or more segments.
-/

namespace PathPattern

inductive Piece (α : Type*)
  | literal (segment : α)
  | param
  | wildcard
  deriving DecidableEq, Repr

variable {α : Type*}

inductive Matches : List (Piece α) → List α → Prop
  | nil : Matches [] []
  | literal {segment pattern path} : Matches pattern path →
      Matches (.literal segment :: pattern) (segment :: path)
  | param {segment pattern path} : Matches pattern path →
      Matches (.param :: pattern) (segment :: path)
  | wildcard {taken pattern path} : taken ≠ [] → Matches pattern path →
      Matches (.wildcard :: pattern) (taken ++ path)

theorem matches_nil {pattern : List (Piece α)} (matched : Matches pattern []) : pattern = [] := by
  generalize empty : ([] : List α) = path at matched
  cases matched with
  | nil => rfl
  | literal rest => cases empty
  | param rest => cases empty
  | wildcard some_ rest => exact (some_ (List.append_eq_nil_iff.mp empty.symm).1).elim

theorem matches_cons {pattern : List (Piece α)} {segment : α} {path : List α}
    (matched : Matches pattern (segment :: path)) :
    (∃ rest, pattern = .literal segment :: rest ∧ Matches rest path) ∨
    (∃ rest, pattern = .param :: rest ∧ Matches rest path) ∨
    (∃ rest taken left, pattern = .wildcard :: rest ∧ path = taken ++ left ∧ Matches rest left) := by
  generalize whole : segment :: path = full at matched
  cases matched with
  | nil => cases whole
  | literal rest =>
      cases whole
      exact Or.inl ⟨_, rfl, rest⟩
  | param rest =>
      cases whole
      exact Or.inr (Or.inl ⟨_, rfl, rest⟩)
  | @wildcard taken pattern left some_ rest =>
      cases taken with
      | nil => exact (some_ rfl).elim
      | cons first taken =>
          rw [List.cons_append, List.cons.injEq] at whole
          exact Or.inr (Or.inr ⟨pattern, taken, left, rfl, whole.2, rest⟩)

section Shapes

variable {segment : α} {pattern : List (Piece α)} {path : List α}

theorem matches_nil_iff : Matches ([] : List (Piece α)) path ↔ path = [] := by
  constructor
  · intro matched
    cases matched
    rfl
  · rintro rfl
    exact Matches.nil

theorem matches_literal_iff : Matches (.literal segment :: pattern) path ↔
    ∃ rest, path = segment :: rest ∧ Matches pattern rest := by
  constructor
  · intro matched
    cases matched with
    | literal matched => exact ⟨_, rfl, matched⟩
  · rintro ⟨rest, rfl, matched⟩
    exact Matches.literal matched

theorem matches_param_iff : Matches (.param :: pattern) path ↔
    ∃ segment rest, path = segment :: rest ∧ Matches pattern rest := by
  constructor
  · intro matched
    cases matched with
    | param matched => exact ⟨_, _, rfl, matched⟩
  · rintro ⟨segment, rest, rfl, matched⟩
    exact Matches.param matched

theorem matches_wildcard_iff : Matches (.wildcard :: pattern) path ↔
    ∃ taken rest, taken ≠ [] ∧ path = taken ++ rest ∧ Matches pattern rest := by
  constructor
  · intro matched
    cases matched with
    | wildcard some_ matched => exact ⟨_, _, some_, rfl, matched⟩
  · rintro ⟨taken, rest, some_, rfl, matched⟩
    exact Matches.wildcard some_ matched

end Shapes

end PathPattern
