import Mathlib.Data.List.Basic
import Mathlib.Data.List.TakeWhile

/-!
Scanners read a prefix of their input. A scanner yields a value and leaves the
rest of the input, or fails, or starves at the end of the input; a note goes with
the two ways to stop. A stable scanner yields the same on every longer input.
-/

namespace Scanning

inductive Outcome (τ ε α : Type)
  | done (value : α) (rest : List τ)
  | failed (note : ε)
  | starved (note : ε)
  deriving DecidableEq, Repr

def Outcome.map {τ ε α β : Type} (change : α → β) : Outcome τ ε α → Outcome τ ε β
  | .done value rest => .done (change value) rest
  | .failed note => .failed note
  | .starved note => .starved note

def Scanner (τ ε α : Type) := List τ → Outcome τ ε α

namespace Scanner

variable {τ ε α β : Type}

instance : Monad (Scanner τ ε) where
  pure value := fun input => .done value input
  bind first next := fun input =>
    match first input with
    | .done value rest => next value rest
    | .failed note => .failed note
    | .starved note => .starved note

def fail (note : ε) : Scanner τ ε α := fun _ => .failed note

def peek (note : ε) : Scanner τ ε τ
  | [] => .starved note
  | char :: rest => .done char (char :: rest)

def next (note : ε) : Scanner τ ε τ
  | [] => .starved note
  | char :: rest => .done char rest

def expect [DecidableEq τ] (note : ε) (char : τ) : Scanner τ ε Unit
  | [] => .starved note
  | first :: rest => if first = char then .done () rest else .failed note

/-- The characters before the first one that stops; all of them must be allowed. -/
def scanUntil (note : ε) (stop allowed : τ → Bool) : Scanner τ ε (List τ) := fun input =>
  match input.dropWhile fun char => !stop char && allowed char with
  | [] => .starved note
  | char :: rest =>
      if stop char then
        .done (input.takeWhile fun char => !stop char && allowed char) (char :: rest)
      else .failed note

def Stable (scanner : Scanner τ ε α) : Prop :=
  ∀ input value rest extra, scanner input = .done value rest →
    scanner (input ++ extra) = .done value (rest ++ extra)

theorem stable_pure (value : α) : Stable (pure value : Scanner τ ε α) := by
  intro input value' rest extra yields
  cases yields
  rfl

theorem stable_bind {first : Scanner τ ε α} {next : α → Scanner τ ε β} (stable : Stable first)
    (stable' : ∀ value, Stable (next value)) : Stable (first >>= next) := by
  intro input value rest extra yields
  change (match first input with
    | .done value rest => next value rest
    | .failed note => .failed note
    | .starved note => .starved note) = _ at yields
  cases reply : first input with
  | done middle left =>
      rw [reply] at yields
      change (match first (input ++ extra) with
        | .done value rest => next value rest
        | .failed note => .failed note
        | .starved note => .starved note) = _
      rw [stable _ _ _ extra reply]
      exact stable' middle _ _ _ extra yields
  | failed note => simp [reply] at yields
  | starved note => simp [reply] at yields

theorem stable_fail (note : ε) : Stable (fail note : Scanner τ ε α) := by
  intro input value rest extra yields
  cases yields

theorem stable_peek (note : ε) : Stable (peek note : Scanner τ ε τ) := by
  intro input value rest extra yields
  cases input with
  | nil => cases yields
  | cons char tail =>
      cases yields
      rfl

theorem stable_next (note : ε) : Stable (next note : Scanner τ ε τ) := by
  intro input value rest extra yields
  cases input with
  | nil => cases yields
  | cons char tail =>
      cases yields
      rfl

theorem stable_expect [DecidableEq τ] (note : ε) (char : τ) : Stable (expect note char) := by
  intro input value rest extra yields
  cases input with
  | nil => cases yields
  | cons first tail =>
      simp only [expect] at yields
      split at yields
      · rename_i same
        cases yields
        simp [expect, same]
      · cases yields

theorem stable_scanUntil (note : ε) (stop allowed : τ → Bool) :
    Stable (scanUntil note stop allowed) := by
  intro input value rest extra yields
  simp only [scanUntil] at yields ⊢
  generalize (fun char => !stop char && allowed char) = inside at *
  cases left : input.dropWhile inside with
  | nil => simp [left] at yields
  | cons char tail =>
      have short : (input.takeWhile inside).length ≠ input.length := by
        have whole := congrArg List.length (@List.takeWhile_append_dropWhile _ inside input)
        rw [List.length_append, left, List.length_cons] at whole
        omega
      have beyond : (input ++ extra).dropWhile inside = char :: (tail ++ extra) := by
        rw [List.dropWhile_append, left]
        rfl
      have token : (input ++ extra).takeWhile inside = input.takeWhile inside := by
        rw [List.takeWhile_append, if_neg short]
      simp only [left] at yields
      split at yields
      · rename_i stops
        cases yields
        simp only [beyond, token, stops, ↓reduceIte, List.cons_append]
      · cases yields

theorem stable_ite {condition : Prop} [Decidable condition] {first second : Scanner τ ε α}
    (stable : Stable first) (stable' : Stable second) :
    Stable (if condition then first else second) := by
  split
  · exact stable
  · exact stable'

theorem done_bind {first : Scanner τ ε α} {next : α → Scanner τ ε β} {input rest : List τ} {value : β} :
    (first >>= next) input = .done value rest ↔
      ∃ middle left, first input = .done middle left ∧ next middle left = .done value rest := by
  change (match first input with
    | .done middle left => next middle left
    | .failed note => .failed note
    | .starved note => .starved note) = _ ↔ _
  cases first input with
  | done middle left =>
      constructor
      · exact fun yields => ⟨middle, left, rfl, yields⟩
      · rintro ⟨_, _, same, yields⟩
        cases same
        exact yields
  | failed note | starved note => simp

theorem done_pure {value value' : α} {input rest : List τ} :
    (pure value : Scanner τ ε α) input = .done value' rest ↔ value = value' ∧ input = rest := by
  change Outcome.done value input = _ ↔ _
  rw [Outcome.done.injEq]

theorem done_fail {note : ε} {value : α} {input rest : List τ} :
    (fail note : Scanner τ ε α) input = .done value rest ↔ False := by
  simp [fail]

theorem done_next {note : ε} {char : τ} {input rest : List τ} :
    next note input = .done char rest ↔ input = char :: rest := by
  cases input with
  | nil => simp [next]
  | cons first tail => simp [next]

theorem done_peek {note : ε} {char : τ} {input rest : List τ} :
    peek note input = .done char rest ↔ rest = input ∧ input.head? = some char := by
  cases input with
  | nil => simp [peek]
  | cons first tail =>
      simp only [peek, Outcome.done.injEq, List.head?_cons, Option.some.injEq]
      constructor
      · rintro ⟨rfl, rfl⟩
        exact ⟨rfl, rfl⟩
      · rintro ⟨rfl, rfl⟩
        exact ⟨rfl, rfl⟩

theorem done_expect [DecidableEq τ] {note : ε} {char : τ} {input rest : List τ} {value : Unit} :
    expect note char input = .done value rest ↔ input = char :: rest := by
  cases input with
  | nil => simp [expect]
  | cons first tail =>
      by_cases same : first = char
      · simp [expect, same]
      · simp [expect, same]

theorem done_scanUntil {note : ε} {stop allowed : τ → Bool} {input rest token : List τ} :
    scanUntil note stop allowed input = .done token rest ↔
      input = token ++ rest ∧ (∀ char ∈ token, stop char = false ∧ allowed char = true) ∧
        ∃ char ∈ rest.head?, stop char = true := by
  constructor
  · intro yields
    simp only [scanUntil] at yields
    have whole := @List.takeWhile_append_dropWhile _ (fun char => !stop char && allowed char) input
    split at yields
    · cases yields
    · rename_i char tail left
      split at yields
      · rename_i stops
        cases yields
        refine ⟨by rw [← left, whole], ?_, char, rfl, stops⟩
        intro char member
        simpa using List.mem_takeWhile_imp member
      · cases yields
  · rintro ⟨rfl, token_, char, first, stops⟩
    cases rest with
    | nil => cases first
    | cons other tail =>
        cases first
        have taken : (token ++ char :: tail).takeWhile (fun char => !stop char && allowed char) = token := by
          rw [List.takeWhile_append_of_pos (by simpa using token_)]
          simp [stops]
        have left : (token ++ char :: tail).dropWhile (fun char => !stop char && allowed char) =
            char :: tail := by
          rw [List.dropWhile_append_of_pos (by simpa using token_)]
          simp [stops]
        simp only [scanUntil, left, taken, stops, ↓reduceIte]

/-- The number of characters that have been read of an input of a size. -/
def position (size : Nat) : Scanner τ ε Nat := fun input => .done (size - input.length) input

theorem done_position {size start : Nat} {input rest : List τ} :
    (position size : Scanner τ ε Nat) input = .done start rest ↔
      start = size - input.length ∧ rest = input := by
  rw [position, Outcome.done.injEq, eq_comm, @eq_comm _ input]

/-- The second scanner does what the first does, but for what is forgotten of its value. -/
def Erases (forget : α → β) (first : Scanner τ ε α) (second : Scanner τ ε β) : Prop :=
  ∀ input, second input = (first input).map forget

theorem erases_pure {forget : α → β} {value : α} {value' : β} (same : forget value = value') :
    Erases forget (pure value : Scanner τ ε α) (pure value') := by
  intro input
  rw [← same]
  rfl

theorem erases_fail (forget : α → β) (note : ε) :
    Erases forget (fail note : Scanner τ ε α) (fail note) := fun _ => rfl

theorem erases_bind {γ δ : Type} {forget : α → β} {forget' : γ → δ} {first : Scanner τ ε α}
    {second : Scanner τ ε β} {next : α → Scanner τ ε γ} {next' : β → Scanner τ ε δ}
    (erases : Erases forget first second)
    (later : ∀ value, Erases forget' (next value) (next' (forget value))) :
    Erases forget' (first >>= next) (second >>= next') := by
  intro input
  change (match second input with
    | .done value rest => next' value rest
    | .failed note => .failed note
    | .starved note => .starved note) = Outcome.map forget' (match first input with
    | .done value rest => next value rest
    | .failed note => .failed note
    | .starved note => .starved note)
  rw [erases input]
  cases first input with
  | done value rest => exact later value rest
  | failed note => rfl
  | starved note => rfl

theorem erases_same {γ δ : Type} {forget : γ → δ} (first : Scanner τ ε α)
    {next : α → Scanner τ ε γ} {next' : α → Scanner τ ε δ}
    (later : ∀ value, Erases forget (next value) (next' value)) :
    Erases forget (first >>= next) (first >>= next') := by
  refine @erases_bind _ _ _ _ _ _ id _ first first next next' ?_ later
  intro input
  cases first input <;> rfl

theorem erases_position {forget : α → β} {size : Nat} {next : Nat → Scanner τ ε α}
    {second : Scanner τ ε β} (later : ∀ start, Erases forget (next start) second) :
    Erases forget (position size >>= next) second := fun input => later _ input

theorem erases_added {forget : β → α} {add : α → β} (first : Scanner τ ε α)
    (same : ∀ value, forget (add value) = value) :
    Erases forget (first >>= fun value => pure (add value)) first := by
  intro input
  change _ = Outcome.map forget (match first input with
    | .done value rest => .done (add value) rest
    | .failed note => .failed note
    | .starved note => .starved note)
  cases first input with
  | done value rest =>
      rw [Outcome.map, same]
  | failed note => rfl
  | starved note => rfl

theorem erases_ite {condition : Prop} [Decidable condition] {forget : α → β}
    {first first' : Scanner τ ε α} {second second' : Scanner τ ε β} (erases : Erases forget first second)
    (erases' : Erases forget first' second') :
    Erases forget (if condition then first else first') (if condition then second else second') := by
  split
  · exact erases
  · exact erases'

end Scanner

end Scanning
