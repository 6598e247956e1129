/-!
# Machines driven by their environment

A `Machine` has an executable step function; everything the program does not
decide itself (scheduling, results of system calls, arriving signals) is the
`Choice` argument. A property of every interleaving is a property of every list
of choices, and `Invariant.of_reachable` reduces it to one step.

Every notion takes a guard on steps: assumptions about the environment restrict
which choices a run may take, and `Reachable.mono` compares two assumptions.
-/

namespace CephGeoRep.Semantics

universe u v

/-- A step function together with the states in which a run may start. -/
structure Machine (State : Type u) (Choice : Type v) where
  Initial : State → Prop
  step : State → Choice → Option State

namespace Machine

variable {State : Type u} {Choice : Type v} {machine : Machine State Choice}

/-- A restriction on the choices an environment makes in a state. -/
abbrev Guard (State : Type u) (Choice : Type v) := State → Choice → Prop

/-- The unrestricted environment. -/
def unguarded : Guard State Choice := fun _ _ => True

instance (state : State) (choice : Choice) : Decidable (unguarded state choice) :=
  .isTrue trivial

/-- Finite runs all of whose steps respect a guard. -/
inductive Steps (machine : Machine State Choice) (guard : Guard State Choice) :
    State → List Choice → State → Prop where
  | refl {state} : Steps machine guard state [] state
  | step {origin choices state choice next}
      (prior : Steps machine guard origin choices state)
      (allowed : guard state choice)
      (taken : machine.step state choice = some next) :
      Steps machine guard origin (choices ++ [choice]) next

/-- A state at the end of some guarded run from an initial state. -/
def Reachable (machine : Machine State Choice) (guard : Guard State Choice)
    (state : State) : Prop :=
  ∃ initial choices, machine.Initial initial ∧ machine.Steps guard initial choices state

variable {guard weaker : Guard State Choice}

/-- Two runs that meet compose. -/
theorem Steps.trans {origin middle final : State} {first second : List Choice}
    (prior : machine.Steps guard origin first middle)
    (suffix : machine.Steps guard middle second final) :
    machine.Steps guard origin (first ++ second) final := by
  induction suffix with
  | refl => simpa using prior
  | step _ allowed taken ih =>
      rw [← List.append_assoc]
      exact .step ih allowed taken

/-- A run of one step. -/
theorem Steps.single {state next : State} {choice : Choice} (allowed : guard state choice)
    (taken : machine.step state choice = some next) :
    machine.Steps guard state [choice] next :=
  show machine.Steps guard state ([] ++ [choice]) next from .step .refl allowed taken

/-- Weakening the guard keeps every run. -/
theorem Steps.mono (implies : ∀ state choice, guard state choice → weaker state choice)
    {origin final : State} {choices : List Choice}
    (steps : machine.Steps guard origin choices final) :
    machine.Steps weaker origin choices final := by
  induction steps with
  | refl => exact .refl
  | step _ allowed taken ih => exact .step ih (implies _ _ allowed) taken

/-- A property that holds where a run starts and is kept by each of its steps
holds where the run ends. -/
theorem Steps.preserves {holds : State → Prop}
    (preserved : ∀ state choice next, holds state → guard state choice →
      machine.step state choice = some next → holds next)
    {origin final : State} {choices : List Choice}
    (steps : machine.Steps guard origin choices final) (start : holds origin) :
    holds final := by
  induction steps with
  | refl => exact start
  | step _ allowed taken ih => exact preserved _ _ _ ih allowed taken

namespace Reachable

/-- Initial states are reachable. -/
theorem initial {state : State} (valid : machine.Initial state) :
    machine.Reachable guard state :=
  ⟨state, [], valid, .refl⟩

/-- Reachable states are closed under guarded runs. -/
theorem steps {state final : State} {choices : List Choice}
    (reachable : machine.Reachable guard state)
    (suffix : machine.Steps guard state choices final) : machine.Reachable guard final := by
  obtain ⟨start, prior, valid, run⟩ := reachable
  exact ⟨start, prior ++ choices, valid, run.trans suffix⟩

/-- Reachable states are closed under guarded steps. -/
theorem next {state next : State} {choice : Choice}
    (reachable : machine.Reachable guard state) (allowed : guard state choice)
    (taken : machine.step state choice = some next) : machine.Reachable guard next :=
  reachable.steps (.single allowed taken)

/-- A weaker assumption on the environment reaches at least as much. -/
theorem mono (implies : ∀ state choice, guard state choice → weaker state choice)
    {state : State} (reachable : machine.Reachable guard state) :
    machine.Reachable weaker state := by
  obtain ⟨start, choices, valid, run⟩ := reachable
  exact ⟨start, choices, valid, run.mono implies⟩

/-- An assumption that every reachable step meets anyway is none. -/
theorem strengthen {stronger : Guard State Choice}
    (always : ∀ state choice next, machine.Reachable stronger state → guard state choice →
      machine.step state choice = some next → stronger state choice)
    {state : State} (reachable : machine.Reachable guard state) :
    machine.Reachable stronger state := by
  obtain ⟨start, choices, valid, run⟩ := reachable
  induction run with
  | refl => exact .initial valid
  | step _ allowed taken ih => exact ih.next (always _ _ _ ih allowed taken) taken

end Reachable

/-- An inductive invariant of the guarded machine. The step obligation may use
that the state it starts from is reachable, so invariants can be stacked. -/
structure Invariant (machine : Machine State Choice) (guard : Guard State Choice)
    (holds : State → Prop) : Prop where
  initial : ∀ state, machine.Initial state → holds state
  preserved : ∀ state choice next, machine.Reachable guard state → holds state →
    guard state choice → machine.step state choice = some next → holds next

/-- An invariant holds in every reachable state. -/
theorem Invariant.of_reachable {holds : State → Prop}
    (invariant : machine.Invariant guard holds) {state : State}
    (reachable : machine.Reachable guard state) : holds state := by
  obtain ⟨start, choices, valid, run⟩ := reachable
  have both : machine.Reachable guard state ∧ holds state := by
    induction run with
    | refl => exact ⟨.initial valid, invariant.initial _ valid⟩
    | step _ allowed taken ih =>
        exact ⟨ih.1.next allowed taken, invariant.preserved _ _ _ ih.1 ih.2 allowed taken⟩
  exact both.2

/-- If every guarded step lowers a measure, apart from the steps of some choices, which
raise it by less than a toll, a run is no longer than the measure of the state it starts
from and the tolls of its choices. -/
theorem Steps.length_le_add {measure : State → Nat} {holds : State → Prop}
    (charged : Choice → Bool) (toll : Nat)
    (preserved : ∀ state choice next, holds state → guard state choice →
      machine.step state choice = some next → holds next)
    (decreases : ∀ state choice next, holds state → guard state choice →
      machine.step state choice = some next →
      measure next < measure state + if charged choice then toll else 0)
    {origin final : State} {choices : List Choice}
    (steps : machine.Steps guard origin choices final) (start : holds origin) :
    choices.length + measure final ≤ measure origin + toll * choices.countP charged := by
  induction steps with
  | refl => simp
  | @step choices state choice next prior allowed taken ih =>
      have here := prior.preserves preserved start
      have lower := decreases _ _ _ here allowed taken
      rw [List.length_append, List.length_singleton, List.countP_append, List.countP_singleton,
        Nat.mul_add]
      cases paid : charged choice with
      | false =>
          rw [paid, if_neg Bool.false_ne_true] at lower
          rw [if_neg Bool.false_ne_true]
          omega
      | true =>
          rw [paid, if_pos rfl] at lower
          rw [if_pos rfl]
          omega

/-- If every guarded step lowers a measure, a run is no longer than the measure
of the state it starts from. -/
theorem Steps.length_le {measure : State → Nat} {holds : State → Prop}
    (preserved : ∀ state choice next, holds state → guard state choice →
      machine.step state choice = some next → holds next)
    (decreases : ∀ state choice next, holds state → guard state choice →
      machine.step state choice = some next → measure next < measure state)
    {origin final : State} {choices : List Choice}
    (steps : machine.Steps guard origin choices final) (start : holds origin) :
    choices.length + measure final ≤ measure origin := by
  have bounded := steps.length_le_add (fun _ => false) 0 preserved decreases start
  rwa [Nat.zero_mul] at bounded

/-- If some guarded run leads from every state with a property to another one with a
higher count, the count has no bound. -/
theorem Steps.unbounded {measure : State → Nat} {holds : State → Prop}
    (progress : ∀ state, holds state → ∃ choices next,
      machine.Steps guard state choices next ∧ holds next ∧ measure state < measure next)
    {origin : State} (start : holds origin) (bound : Nat) :
    ∃ choices final, machine.Steps guard origin choices final ∧ holds final ∧
      bound ≤ measure final := by
  induction bound with
  | zero => exact ⟨[], origin, .refl, start, Nat.zero_le _⟩
  | succ bound ih =>
      obtain ⟨choices, state, steps, here, reached⟩ := ih
      obtain ⟨more, next, further, there, higher⟩ := progress state here
      exact ⟨choices ++ more, next, steps.trans further, there, by omega⟩

/-- Execute a list of choices, checking the guard before each of them. -/
def run (machine : Machine State Choice) (guard : Guard State Choice)
    [∀ state choice, Decidable (guard state choice)] : State → List Choice → Option State
  | state, [] => some state
  | state, choice :: rest =>
    if guard state choice then
      match machine.step state choice with
      | some next => machine.run guard next rest
      | none => none
    else none

/-- An executed list of choices is a guarded run. -/
theorem steps_of_run [∀ state choice, Decidable (guard state choice)] {origin final : State}
    {choices : List Choice} (executed : machine.run guard origin choices = some final) :
    machine.Steps guard origin choices final := by
  induction choices generalizing origin with
  | nil =>
      obtain rfl : origin = final := by simpa [run] using executed
      exact .refl
  | cons choice rest ih =>
      simp only [run] at executed
      split at executed
      · next allowed =>
        split at executed
        · next next taken => exact (Steps.single allowed taken).trans (ih executed)
        · cases executed
      · cases executed

theorem run_append [∀ state choice, Decidable (guard state choice)] {origin : State}
    (first second : List Choice) : machine.run guard origin (first ++ second) =
      (machine.run guard origin first).bind fun middle => machine.run guard middle second := by
  induction first generalizing origin with
  | nil => rfl
  | cons choice rest ih =>
      simp only [List.cons_append, run]
      split
      · cases machine.step origin choice with
        | none => rfl
        | some next => exact ih
      · rfl

/-- A guarded run can be executed. -/
theorem run_of_steps [∀ state choice, Decidable (guard state choice)] {origin final : State}
    {choices : List Choice} (steps : machine.Steps guard origin choices final) :
    machine.run guard origin choices = some final := by
  induction steps with
  | refl => rfl
  | step _ allowed taken ih =>
      rw [run_append, ih, Option.bind_some, run, if_pos allowed, taken]
      rfl

/-- An executed list of choices from an initial state reaches its end. -/
theorem reachable_of_run [∀ state choice, Decidable (guard state choice)]
    {origin final : State} {choices : List Choice} (valid : machine.Initial origin)
    (executed : machine.run guard origin choices = some final) :
    machine.Reachable guard final :=
  ⟨origin, choices, valid, steps_of_run executed⟩

/-- Evaluating a run and a test of its end yields a reachable state that passes. -/
theorem exists_of_run [∀ state choice, Decidable (guard state choice)] {origin : State}
    {choices : List Choice} {test : State → Bool} (valid : machine.Initial origin)
    (executed : (machine.run guard origin choices).any test = true) :
    ∃ state, machine.Reachable guard state ∧ test state = true := by
  obtain ⟨state, reached, passed⟩ := (Option.any_eq_true test _).mp executed
  exact ⟨state, reachable_of_run valid reached, passed⟩

end Machine

end CephGeoRep.Semantics
