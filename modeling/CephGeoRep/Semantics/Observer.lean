import CephGeoRep.Semantics.Machine

/-!
# Observers

A property of what has happened in a run needs a state that remembers it. An
`Observer` keeps a record beside a machine without influencing it; it may also note
events that are no steps of the machine. What is reachable with the record is reachable
without it.
-/

namespace CephGeoRep.Semantics

universe u v w x

/-- What an observer notes at the start of a run and at its steps, and how it notes an
event. -/
structure Observer (State : Type u) (Choice : Type v) (Record : Type w) (Event : Type x) where
  start : State → Record
  note : State → Choice → State → Record → Record
  see : State → Event → Record → Option Record

/-- A state and what has been noted so far. -/
structure Observed (State : Type u) (Record : Type w) where
  state : State
  record : Record

namespace Observer

variable {State : Type u} {Choice : Type v} {Record : Type w} {Event : Type x}
  {machine : Machine State Choice} {observer : Observer State Choice Record Event}

/-- The machine with its observer. -/
def watch (observer : Observer State Choice Record Event) (machine : Machine State Choice) :
    Machine (Observed State Record) (Choice ⊕ Event) where
  Initial both := machine.Initial both.state ∧ both.record = observer.start both.state
  step both
    | .inl choice =>
      (machine.step both.state choice).map fun next =>
        ⟨next, observer.note both.state choice next both.record⟩
    | .inr event =>
      (observer.see both.state event both.record).map fun record =>
        { both with record := record }

variable {guard : Machine.Guard (Observed State Record) (Choice ⊕ Event)}
  {weaker : Machine.Guard State Choice} {both next : Observed State Record}

/-- A step of the machine as its observer sees it. -/
theorem step_inl {choice : Choice}
    (taken : (observer.watch machine).step both (.inl choice) = some next) :
    machine.step both.state choice = some next.state ∧
      next.record = observer.note both.state choice next.state both.record := by
  obtain ⟨state, stepped, rfl⟩ := Option.map_eq_some_iff.mp taken
  exact ⟨stepped, rfl⟩

/-- An event changes the record only. -/
theorem step_inr {event : Event}
    (taken : (observer.watch machine).step both (.inr event) = some next) :
    next.state = both.state ∧ observer.see both.state event both.record = some next.record := by
  obtain ⟨record, seen, rfl⟩ := Option.map_eq_some_iff.mp taken
  exact ⟨rfl, seen⟩

/-- The observer does not extend what the machine reaches. -/
theorem reachable (reachable : (observer.watch machine).Reachable guard both)
    (implies : ∀ both choice, guard both (.inl choice) → weaker both.state choice) :
    machine.Reachable weaker both.state := by
  obtain ⟨start, choices, valid, run⟩ := reachable
  induction run with
  | refl => exact .initial valid.1
  | @step choices state choice next _ allowed taken ih =>
      cases choice with
      | inl choice => exact ih.next (implies _ _ allowed) (step_inl taken).1
      | inr event => exact (step_inr taken).1 ▸ ih

/-- An invariant of the machine with its observer: the steps and the events keep it. -/
theorem invariant {holds : Observed State Record → Prop}
    (initial : ∀ state, machine.Initial state → holds ⟨state, observer.start state⟩)
    (stepped : ∀ both choice next, (observer.watch machine).Reachable guard both → holds both →
      guard both (.inl choice) → machine.step both.state choice = some next →
      holds ⟨next, observer.note both.state choice next both.record⟩)
    (seen : ∀ both event record, (observer.watch machine).Reachable guard both → holds both →
      guard both (.inr event) → observer.see both.state event both.record = some record →
      holds { both with record := record }) :
    (observer.watch machine).Invariant guard holds where
  initial := by
    rintro ⟨state, record⟩ ⟨valid, started⟩
    rw [show record = observer.start state from started]
    exact initial state valid
  preserved both choice next reachable here allowed taken := by
    obtain ⟨state, record⟩ := next
    cases choice with
    | inl choice =>
        obtain ⟨moved, noted⟩ := step_inl taken
        rw [show record = observer.note both.state choice state both.record from noted]
        exact stepped both choice state reachable here allowed moved
    | inr event =>
        obtain ⟨same, noted⟩ := step_inr taken
        rw [show state = both.state from same]
        exact seen both event record reachable here allowed noted

end Observer

end CephGeoRep.Semantics
