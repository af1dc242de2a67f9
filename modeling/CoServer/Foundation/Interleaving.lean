import CoServer.Foundation.Transition

/-!
A pool of components of one kind, each with a state of its own. New components
enter the pool, and the steps of those in it are taken in any order. Each of them
runs as it would alone.
-/

namespace Transition

variable {State Event : Type*}

/-- An event of a pool is one of the component at an index. -/
inductive PoolStep (starts : State → Prop) (step : State → List Event → State → Prop) :
    List State → List (Nat × Event) → List State → Prop
  | enter {pool state} : starts state → PoolStep starts step pool [] (pool ++ [state])
  | move {pool index state events next} : pool[index]? = some state → step state events next →
      PoolStep starts step pool (events.map fun event => (index, event)) (pool.set index next)

def eventsOf (index : Nat) (events : List (Nat × Event)) : List Event :=
  events.filterMap fun event => if event.1 = index then some event.2 else none

@[simp] theorem eventsOf_nil (index : Nat) : eventsOf index ([] : List (Nat × Event)) = [] := rfl

@[simp] theorem eventsOf_append (index : Nat) (events more : List (Nat × Event)) :
    eventsOf index (events ++ more) = eventsOf index events ++ eventsOf index more :=
  List.filterMap_append

theorem eventsOf_same (index : Nat) (events : List Event) :
    eventsOf index (events.map fun event => (index, event)) = events := by
  induction events with
  | nil => rfl
  | cons event events ih => simpa [eventsOf] using ih

theorem eventsOf_other {index other : Nat} (different : other ≠ index) (events : List Event) :
    eventsOf index (events.map fun event => (other, event)) = [] := by
  simp [eventsOf, different]

variable {starts : State → Prop} {step : State → List Event → State → Prop}

/-- A run of one component is a run of the pool. -/
theorem Run.inPool {pool : List State} {index : Nat} {state next : State} {events : List Event}
    (run : Run step state events next) (at_ : pool[index]? = some state) :
    Run (PoolStep starts step) pool (events.map fun event => (index, event)) (pool.set index next) := by
  obtain ⟨inside, rfl⟩ := List.getElem?_eq_some_iff.mp at_
  induction run with
  | refl =>
      rw [List.set_getElem_self inside]
      exact Run.refl
  | @snoc before middle after last _ taken ih =>
      have moved : PoolStep starts step (pool.set index middle) _ _ :=
        PoolStep.move (List.getElem?_set_self inside) taken
      rw [List.set_set] at moved
      rw [List.map_append]
      exact ih.snoc moved

/-- What the pool holds has run alone, and nothing comes from beyond it. -/
structure Separate (starts : State → Prop) (step : State → List Event → State → Prop)
    (events : List (Nat × Event)) (pool : List State) : Prop where
  alone : ∀ index state, pool[index]? = some state →
    ∃ first, starts first ∧ Run step first (eventsOf index events) state
  quiet : ∀ index, pool.length ≤ index → eventsOf index events = []

theorem PoolStep.separate {events new : List (Nat × Event)} {pool next : List State}
    (separate : Separate starts step events pool) (taken : PoolStep starts step pool new next) :
    Separate starts step (events ++ new) next := by
  cases taken with
  | @enter state start =>
      rw [List.append_nil]
      refine ⟨?_, fun index beyond => separate.quiet index (by rw [List.length_append] at beyond; omega)⟩
      intro index found at_
      by_cases inside : index < pool.length
      · rw [List.getElem?_append_left inside] at at_
        exact separate.alone index found at_
      · rw [List.getElem?_append_right (Nat.not_lt.mp inside)] at at_
        obtain ⟨_, rfl⟩ := List.getElem?_eq_some_iff.mp at_
        refine ⟨_, ?_, separate.quiet index (Nat.not_lt.mp inside) ▸ Run.refl⟩
        simpa using start
  | @move index state _ _ at_ taken =>
      have inside := (List.getElem?_eq_some_iff.mp at_).1
      refine ⟨?_, ?_⟩
      · intro other found at_'
        rw [eventsOf_append]
        by_cases same : index = other
        · subst same
          rw [List.getElem?_set_self inside, Option.some.injEq] at at_'
          subst at_'
          obtain ⟨first, start, run⟩ := separate.alone index state at_
          rw [eventsOf_same]
          exact ⟨first, start, run.snoc taken⟩
        · rw [List.getElem?_set_ne same] at at_'
          rw [eventsOf_other same, List.append_nil]
          exact separate.alone other found at_'
      · intro other beyond
        rw [List.length_set] at beyond
        rw [eventsOf_append, separate.quiet other beyond, eventsOf_other (by omega)]
        rfl

theorem pool_separate {events : List (Nat × Event)} {pool : List State}
    (run : Run (PoolStep starts step) [] events pool) : Separate starts step events pool :=
  run.invariant (Separate starts step) ⟨by simp, fun _ _ => rfl⟩
    fun _ _ _ _ separate taken => taken.separate separate

end Transition
