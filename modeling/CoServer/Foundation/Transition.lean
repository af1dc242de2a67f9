import Mathlib.Logic.Relation

/-!
Runs of labelled transition systems. A step goes from one state to another and
emits a list of events; a run collects the events of its steps in order. The
module gives the induction rule for invariants of runs, and the inevitability
of a goal along every run.
-/

namespace Transition

variable {State Event : Type*}

inductive Run (step : State → List Event → State → Prop) (first : State) :
    List Event → State → Prop
  | refl : Run step first [] first
  | snoc {before middle after last} :
      Run step first before middle → step middle after last →
      Run step first (before ++ after) last

variable {step : State → List Event → State → Prop}

theorem Run.single {first events last} (taken : step first events last) :
    Run step first events last := by
  simpa using Run.snoc Run.refl taken

theorem Run.trans {first before middle after last}
    (front : Run step first before middle) (back : Run step middle after last) :
    Run step first (before ++ after) last := by
  induction back with
  | refl => simpa using front
  | snoc _ taken ih =>
      rw [← List.append_assoc]
      exact Run.snoc ih taken

/-- What holds at the start and is kept by each step holds after every run. -/
theorem Run.invariant (holds : List Event → State → Prop) {first events last}
    (start : holds [] first)
    (keep : ∀ before state after next, holds before state → step state after next →
      holds (before ++ after) next)
    (run : Run step first events last) : holds events last := by
  induction run with
  | refl => exact start
  | snoc _ taken ih => exact keep _ _ _ _ ih taken

theorem Run.stateInvariant {holds : State → Prop} {first events last}
    (run : Run step first events last) (start : holds first)
    (keep : ∀ state after next, holds state → step state after next → holds next) :
    holds last :=
  Run.invariant (fun _ state => holds state) start
    (fun _ state after next held taken => keep state after next held taken) run

theorem Run.weaken {step' : State → List Event → State → Prop} {first events last}
    (run : Run step first events last)
    (imply : ∀ state after next, step state after next → step' state after next) :
    Run step' first events last := by
  induction run with
  | refl => exact Run.refl
  | snoc _ taken ih => exact Run.snoc ih (imply _ _ _ taken)

/-- Where each step emits one event, a run is cut at any event of it. -/
theorem Run.cut (one : ∀ state after next, step state after next → ∃ event, after = [event])
    {first last} {front back : List Event} {event : Event}
    (run : Run step first (front ++ event :: back) last) :
    ∃ before after, Run step first front before ∧ step before [event] after ∧
      Run step after back last := by
  generalize whole : front ++ event :: back = events at run
  induction run generalizing back with
  | refl => simp at whole
  | @snoc events middle emitted last run taken ih =>
      obtain ⟨final, rfl⟩ := one _ _ _ taken
      obtain rfl | ⟨back, other, rfl⟩ := List.eq_nil_or_concat back
      · obtain ⟨rfl, same⟩ := List.append_inj' whole rfl
        cases same
        exact ⟨middle, last, run, taken, Run.refl⟩
      · have split : (front ++ event :: back) ++ [other] = events ++ [final] := by simpa using whole
        obtain ⟨shorter, same⟩ := List.append_inj' split rfl
        cases same
        obtain ⟨before, after, earlier, here, later⟩ := ih shorter
        refine ⟨before, after, earlier, here, ?_⟩
        rw [List.concat_eq_append]
        exact Run.snoc later taken

theorem Run.simulated {State' Event' : Type*} {step' : State' → List Event' → State' → Prop}
    (related : State → State' → Prop) {see : Event → List Event'}
    (matched : ∀ state after next spec, related state spec → step state after next →
      ∃ spec', Run step' spec (after.flatMap see) spec' ∧ related next spec')
    {first events last spec} (start : related first spec) (run : Run step first events last) :
    ∃ spec', Run step' spec (events.flatMap see) spec' ∧ related last spec' := by
  induction run with
  | refl => exact ⟨spec, Run.refl, start⟩
  | snoc _ taken ih =>
      obtain ⟨middle, front, related_⟩ := ih
      obtain ⟨spec', back, related'⟩ := matched _ _ _ _ related_ taken
      rw [List.flatMap_append]
      exact ⟨spec', front.trans back, related'⟩

/-- The run of a system along given choices. -/
def exec {Choice : Type*} (step : State → Choice → Option (State × List Event)) (state : State) :
    List Choice → Option (State × List Event)
  | [] => some (state, [])
  | choice :: rest =>
      (step state choice).bind fun after =>
        (exec step after.1 rest).map fun last => (last.1, after.2 ++ last.2)

theorem exec_run {Choice : Type*} {step : State → Choice → Option (State × List Event)}
    {choices : List Choice} {state last : State} {events : List Event}
    (done : exec step state choices = some (last, events)) :
    Run (fun state events next => ∃ choice, step state choice = some (next, events)) state events
      last := by
  induction choices generalizing state events with
  | nil =>
      cases done
      exact Run.refl
  | cons choice rest ih =>
      simp only [exec, Option.bind_eq_some_iff, Option.map_eq_some_iff] at done
      obtain ⟨after, taken, final, remaining, result⟩ := done
      cases result
      exact (Run.single ⟨choice, taken⟩).trans (ih remaining)

/-- Every run from the state meets the goal, and none stops before it does. -/
inductive Inevitably (step : State → List Event → State → Prop) (goal : State → Prop) :
    State → Prop
  | here {state} : goal state → Inevitably step goal state
  | next {state} : (∃ events next, step state events next) →
      (∀ events next, step state events next → Inevitably step goal next) →
      Inevitably step goal state

theorem Inevitably.bind {goal final : State → Prop} {state}
    (first : Inevitably step goal state)
    (continue_ : ∀ reached, goal reached → Inevitably step final reached) :
    Inevitably step final state := by
  induction first with
  | here met => exact continue_ _ met
  | next possible _ ih => exact Inevitably.next possible ih

theorem Inevitably.only {goal : State → Prop} {state events next}
    (taken : step state events next)
    (unique : ∀ events' next', step state events' next' → next' = next)
    (later : Inevitably step goal next) : Inevitably step goal state := by
  refine Inevitably.next ⟨events, next, taken⟩ ?_
  intro events' next' taken'
  rw [unique events' next' taken']
  exact later

theorem Inevitably.reached {goal : State → Prop} {state}
    (inevitable : Inevitably step goal state) :
    ∃ events last, Run step state events last ∧ goal last := by
  induction inevitable with
  | here met => exact ⟨[], _, Run.refl, met⟩
  | next possible _ ih =>
      obtain ⟨head, middle, taken⟩ := possible
      obtain ⟨tail, last, run, met⟩ := ih head middle taken
      exact ⟨head ++ tail, last, (Run.single taken).trans run, met⟩

/-- A system whose steps are matched by those of another one, and that stops only where
the other one does, meets what the other one meets. -/
theorem Inevitably.simulated {State' Event' : Type*} {step' : State' → List Event' → State' → Prop}
    {related : State → State' → Prop} {goal : State → Prop} {state : State} {other : State'}
    (progress : ∀ state other, related state other → Inevitably step goal state → ¬ goal state →
      ∃ events next, step' other events next)
    (matched : ∀ state other events next, related state other → Inevitably step goal state →
      ¬ goal state → step' other events next →
        ∃ events' next', step state events' next' ∧ related next' next)
    (inevitable : Inevitably step goal state) (start : related state other) :
    Inevitably step' (fun other => ∃ state, goal state ∧ related state other) other := by
  induction inevitable generalizing other with
  | @here state met => exact Inevitably.here ⟨state, met, start⟩
  | @next state possible later ih =>
      by_cases met : goal state
      · exact Inevitably.here ⟨state, met, start⟩
      · have inevitable := Inevitably.next possible later
        refine Inevitably.next (progress _ _ start inevitable met) ?_
        intro events next taken
        obtain ⟨events', next', taken', related_⟩ := matched _ _ _ _ start inevitable met taken
        exact ih events' next' taken' related_

theorem not_inevitably_next {goal : State → Prop} {state : State} (unmet : ¬ goal state)
    (never : ∀ events next, step state events next → ¬ Inevitably step goal next) :
    ¬ Inevitably step goal state := by
  intro inevitable
  cases inevitable with
  | here met => exact unmet met
  | next possible later =>
      obtain ⟨events, next, taken⟩ := possible
      exact never events next taken (later events next taken)

def Leads (step : State → List Event → State → Prop) (first last : State) : Prop :=
  ∃ events, Run step first events last

theorem Leads.refl (state : State) : Leads step state state := ⟨[], Run.refl⟩

theorem Leads.cons {first events middle last} (taken : step first events middle)
    (later : Leads step middle last) : Leads step first last := by
  obtain ⟨more, run⟩ := later
  exact ⟨events ++ more, (Run.single taken).trans run⟩

theorem Leads.trans {first middle last} (front : Leads step first middle)
    (back : Leads step middle last) : Leads step first last := by
  obtain ⟨before, run⟩ := front
  obtain ⟨after, run'⟩ := back
  exact ⟨before ++ after, run.trans run'⟩

/-- Where a goal can be left by no step, a state of a deterministic system meets it as
inevitably as a state it leads to. -/
theorem Leads.inevitably_iff {goal : State → Prop} {first last}
    (deterministic : ∀ state after after' next next', step state after next →
      step state after' next' → next = next')
    (terminal : ∀ state after next, goal state → ¬ step state after next)
    (leads : Leads step first last) :
    Inevitably step goal first ↔ Inevitably step goal last := by
  obtain ⟨events, run⟩ := leads
  induction run with
  | refl => exact Iff.rfl
  | snoc _ taken ih =>
      rw [ih]
      constructor
      · intro inevitable
        cases inevitable with
        | here met => exact (terminal _ _ _ met taken).elim
        | next _ later => exact later _ _ taken
      · intro later
        exact Inevitably.only taken
          (fun _ _ taken' => (deterministic _ _ _ _ _ taken taken').symm) later

/-- Where each step of one system is inevitably followed by another one, so is a run. -/
theorem Leads.followed {State' Event' : Type*} {step' : State' → List Event' → State' → Prop}
    {related : State → State' → Prop} {first last : State} {other : State'}
    (matched : ∀ state events next other, related state other → step state events next →
      Inevitably step' (related next) other)
    (leads : Leads step first last) (start : related first other) :
    Inevitably step' (related last) other := by
  obtain ⟨events, run⟩ := leads
  induction run with
  | refl => exact Inevitably.here start
  | snoc _ taken ih => exact ih.bind fun reached related_ => matched _ _ _ reached related_ taken

theorem not_inevitably {goal : State → Prop} (doomed : State → Prop) {state : State} (start : doomed state)
    (keep : ∀ state after next, doomed state → step state after next → doomed next)
    (never : ∀ state, doomed state → ¬ goal state) : ¬ Inevitably step goal state := by
  intro inevitable
  obtain ⟨events, last, run, met⟩ := inevitable.reached
  exact never last (run.stateInvariant start keep) met

end Transition
