import CoServer.Foundation.PathPattern
import Mathlib.Data.List.Lex
import Mathlib.Order.Lattice

/-!
The ways in which a pattern matches, as the choices made segment by segment, and
their lexicographic order: a literal before a parameter, a parameter before a
wildcard, and a wildcard that takes fewer segments before one that takes more.
-/

namespace PathPattern

inductive Choice
  | literal
  | param
  | wildcard (count : Nat)
  deriving DecidableEq, Repr

namespace Choice

def rank : Choice → Nat
  | .literal => 0
  | .param => 1
  | .wildcard count => count + 2

theorem rank_injective : Function.Injective rank := by
  intro first second same
  cases first <;> cases second <;> simp_all [rank]

instance : LinearOrder Choice := LinearOrder.lift' rank rank_injective

theorem lt_iff {first second : Choice} : first < second ↔ first.rank < second.rank := Iff.rfl

end Choice

variable {α : Type*}

/-- The pattern matches the path by the choices. -/
inductive Derives : List (Piece α) → List α → List Choice → Prop
  | nil : Derives [] [] []
  | literal {segment pattern path choices} : Derives pattern path choices →
      Derives (.literal segment :: pattern) (segment :: path) (.literal :: choices)
  | param {segment pattern path choices} : Derives pattern path choices →
      Derives (.param :: pattern) (segment :: path) (.param :: choices)
  | wildcard {count pattern path choices} : 0 < count → count ≤ path.length →
      Derives pattern (path.drop count) choices →
      Derives (.wildcard :: pattern) path (.wildcard count :: choices)

theorem matches_iff_derives {pattern : List (Piece α)} {path : List α} :
    Matches pattern path ↔ ∃ choices, Derives pattern path choices := by
  constructor
  · intro matched
    induction matched with
    | nil => exact ⟨[], Derives.nil⟩
    | literal _ ih =>
        obtain ⟨choices, derives⟩ := ih
        exact ⟨_, Derives.literal derives⟩
    | param _ ih =>
        obtain ⟨choices, derives⟩ := ih
        exact ⟨_, Derives.param derives⟩
    | @wildcard taken pattern path some_ _ ih =>
        obtain ⟨choices, derives⟩ := ih
        have inside : taken.length ≤ (taken ++ path).length := by
          rw [List.length_append]
          exact Nat.le_add_right _ _
        have below : Derives pattern ((taken ++ path).drop taken.length) choices := by
          rw [List.drop_left]
          exact derives
        exact ⟨_, Derives.wildcard (List.length_pos_iff.mpr some_) inside below⟩
  · rintro ⟨choices, derives⟩
    induction derives with
    | nil => exact Matches.nil
    | literal _ ih => exact Matches.literal ih
    | param _ ih => exact Matches.param ih
    | @wildcard count pattern path choices some_ inside _ ih =>
        rw [← List.take_append_drop count path]
        refine Matches.wildcard (fun none_ => ?_) ih
        rw [List.take_eq_nil_iff] at none_
        rcases none_ with zero | empty_
        · omega
        · rw [empty_, List.length_nil] at inside
          omega

theorem Derives.unique {pattern pattern' : List (Piece α)} {path : List α} {choices : List Choice}
    (derives : Derives pattern path choices) (derives' : Derives pattern' path choices) :
    pattern = pattern' := by
  induction derives generalizing pattern' with
  | nil =>
      cases derives'
      rfl
  | literal _ ih =>
      cases derives' with
      | literal below => rw [ih below]
  | param _ ih =>
      cases derives' with
      | param below => rw [ih below]
  | wildcard _ _ _ ih =>
      cases derives' with
      | wildcard _ _ below => rw [ih below]

/-- A pattern of a set that matches by the least choices of all its patterns. -/
structure Least (registered : List (Piece α) → Prop) (path : List α) (pattern : List (Piece α))
    (choices : List Choice) : Prop where
  member : registered pattern
  derives : Derives pattern path choices
  least : ∀ pattern' choices', registered pattern' → Derives pattern' path choices' → choices ≤ choices'

theorem Least.unique {registered : List (Piece α) → Prop} {path : List α} {pattern pattern' : List (Piece α)}
    {choices choices' : List Choice} (least : Least registered path pattern choices)
    (least' : Least registered path pattern' choices') : pattern = pattern' ∧ choices = choices' := by
  have same : choices = choices' := le_antisymm (least.least _ _ least'.member least'.derives)
    (least'.least _ _ least.member least.derives)
  subst same
  exact ⟨least.derives.unique least'.derives, rfl⟩

theorem Least.congr {registered registered' : List (Piece α) → Prop} {path : List α}
    {pattern : List (Piece α)} {choices : List Choice} (least : Least registered path pattern choices)
    (same : ∀ pattern, Matches pattern path → (registered pattern ↔ registered' pattern)) :
    Least registered' path pattern choices := by
  have matched : ∀ {pattern' choices'}, Derives pattern' path choices' → Matches pattern' path :=
    fun derives => matches_iff_derives.mpr ⟨_, derives⟩
  refine ⟨(same _ (matched least.derives)).mp least.member, least.derives, ?_⟩
  intro pattern' choices' member derives
  exact least.least _ _ ((same _ (matched derives)).mpr member) derives

theorem cons_le_cons_iff {first second : Choice} {choices choices' : List Choice} :
    first :: choices ≤ second :: choices' ↔ first < second ∨ first = second ∧ choices ≤ choices' := by
  rw [← not_lt, List.cons_lt_cons_iff, not_or, not_lt, not_and, not_lt]
  constructor
  · rintro ⟨order, below⟩
    rcases lt_or_eq_of_le order with before | same
    · exact Or.inl before
    · exact Or.inr ⟨same, below same.symm⟩
  · rintro (before | ⟨same, below⟩)
    · exact ⟨le_of_lt before, fun same => absurd before (same ▸ lt_irrefl _)⟩
    · exact ⟨le_of_eq same, fun _ => below⟩

end PathPattern
