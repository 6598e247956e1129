import Mathlib.Logic.Function.Basic

/-!
# Programs in a shared world

A `Program` has a state of its own and changes a world that it shares with others; an event
of the environment decides each of its steps. `Runs` is what can become of one while the
others change the world by a rely, and `Meets` is its specification: its own steps keep to a
guarantee, and where it exits with code 0 a postcondition holds. In a `Family` of programs
whose guarantees are within the rely, every program keeps its run.
-/

namespace CephGeoRep.Semantics

universe u v w x

/-- What a program starts as, its steps, and the codes it may exit with. -/
structure Program (Arg : Type u) (Local : Type v) (World : Type w) (Event : Type x) where
  start : List Arg → Local
  step : Local → World → Event → Option (Local × World)
  exits : Local → Nat → Bool

namespace Program

variable {Arg : Type u} {Local : Type v} {World : Type w} {Event : Type x}
  {program : Program Arg Local World Event} {rely : World → World → Prop} {args : List Arg}

/-- A program that was started with arguments, among others that keep to the rely. -/
inductive Runs (program : Program Arg Local World Event) (rely : World → World → Prop)
    (args : List Arg) : Local → World → Prop where
  | start (world : World) : Runs program rely args (program.start args) world
  | step {here there : Local} {world after : World} {event : Event}
      (prior : Runs program rely args here world)
      (taken : program.step here world event = some (there, after)) :
      Runs program rely args there after
  | others {here : Local} {world after : World} (prior : Runs program rely args here world)
      (allowed : rely world after) : Runs program rely args here after

/-- A property of the program and the world that its steps and those of the others keep. -/
theorem Runs.preserves {holds : Local → World → Prop}
    (started : ∀ world, holds (program.start args) world)
    (stepped : ∀ here world event there after, holds here world →
      program.step here world event = some (there, after) → holds there after)
    (stable : ∀ here world after, holds here world → rely world after → holds here after)
    {here : Local} {world : World} (runs : program.Runs rely args here world) :
    holds here world := by
  induction runs with
  | start world => exact started world
  | step _ taken ih => exact stepped _ _ _ _ _ ih taken
  | others _ allowed ih => exact stable _ _ _ ih allowed

/-- With these arguments the steps of the program keep to the guarantee, and the
postcondition holds when its exit code is 0. -/
structure Meets (program : Program Arg Local World Event) (args : List Arg)
    (rely guarantee : World → World → Prop) (post : World → Prop) : Prop where
  keeps : ∀ here world event there after, program.Runs rely args here world →
    program.step here world event = some (there, after) → guarantee world after
  ends : ∀ here world code, program.Runs rely args here world →
    program.exits here code = true → code % 256 = 0 → post world

/-- Specifications by an invariant. -/
theorem Meets.of_invariant {guarantee : World → World → Prop} {post : World → Prop}
    (holds : Local → World → Prop) (started : ∀ world, holds (program.start args) world)
    (stepped : ∀ here world event there after, holds here world →
      program.step here world event = some (there, after) →
      holds there after ∧ guarantee world after)
    (stable : ∀ here world after, holds here world → rely world after → holds here after)
    (ended : ∀ here world code, holds here world → program.exits here code = true →
      code % 256 = 0 → post world) : program.Meets args rely guarantee post := by
  have always : ∀ {here world}, program.Runs rely args here world → holds here world :=
    fun runs => runs.preserves started
      (fun _ _ _ _ _ here taken => (stepped _ _ _ _ _ here taken).1) stable
  exact {
    keeps := fun _ _ _ _ _ runs taken => (stepped _ _ _ _ _ (always runs) taken).2
    ends := fun _ _ _ runs exits zero => ended _ _ _ (always runs) exits zero }

end Program

/-! ## Families -/

/-- Programs under their indices, and the world they share. -/
structure Family (Local : Type v) (World : Type w) where
  locals : Nat → Option Local
  world : World

namespace Family

variable {Arg : Type u} {Local : Type v} {World : Type w} {Event : Type x}

/-- No program runs. -/
def empty (world : World) : Family Local World := ⟨fun _ => none, world⟩

/-- A program starts under an index. -/
def execute (program : Program Arg Local World Event) (index : Nat) (args : List Arg)
    (family : Family Local World) : Family Local World :=
  { family with locals := Function.update family.locals index (some (program.start args)) }

/-- The program under an index takes a step. -/
def step (program : Program Arg Local World Event) (index : Nat) (event : Event)
    (family : Family Local World) : Option (Family Local World) :=
  match family.locals index with
  | some here =>
    (program.step here family.world event).map fun (there, world) =>
      ⟨Function.update family.locals index (some there), world⟩
  | none => none

/-- The program under an index may exit with a code. -/
def exits (program : Program Arg Local World Event) (index code : Nat)
    (family : Family Local World) : Bool :=
  (family.locals index).any fun here => program.exits here code

/-- A program that was started with these arguments runs under the index. -/
def Running (program : Program Arg Local World Event) (rely : World → World → Prop)
    (index : Nat) (args : List Arg) (family : Family Local World) : Prop :=
  ∃ here, family.locals index = some here ∧ program.Runs rely args here family.world

variable {program : Program Arg Local World Event} {rely guarantee : World → World → Prop}
  {post : World → Prop} {index other : Nat} {args args' : List Arg} {event : Event}
  {family after : Family Local World}

theorem running_execute (program : Program Arg Local World Event) (rely : World → World → Prop)
    (index : Nat) (args : List Arg) (family : Family Local World) :
    (family.execute program index args).Running program rely index args :=
  ⟨program.start args, Function.update_self .., .start _⟩

theorem Running.execute (running : family.Running program rely index args)
    (different : index ≠ other) (args' : List Arg) :
    (family.execute program other args').Running program rely index args := by
  obtain ⟨here, found, runs⟩ := running
  exact ⟨here, (Function.update_of_ne different ..).trans found, runs⟩

theorem eq_of_step (taken : family.step program index event = some after) :
    ∃ here there, family.locals index = some here ∧
      program.step here family.world event = some (there, after.world) ∧
      after.locals = Function.update family.locals index (some there) := by
  rw [step] at taken
  split at taken
  · next here found =>
    obtain ⟨⟨there, world⟩, stepped, rfl⟩ := Option.map_eq_some_iff.mp taken
    exact ⟨here, there, found, stepped, rfl⟩
  · cases taken

/-- A step of a program is within its guarantee. -/
theorem Running.keeps (running : family.Running program rely index args)
    (meets : program.Meets args rely guarantee post)
    (taken : family.step program index event = some after) :
    guarantee family.world after.world := by
  obtain ⟨here, found, runs⟩ := running
  obtain ⟨here', there, found', stepped, _⟩ := eq_of_step taken
  obtain rfl : here = here' := Option.some.inj (found.symm.trans found')
  exact meets.keeps _ _ _ _ _ runs stepped

/-- A program keeps its run at its own steps, and at those of the others that keep to the
rely. -/
theorem Running.step (running : family.Running program rely index args)
    (taken : family.step program other event = some after)
    (allowed : rely family.world after.world) : after.Running program rely index args := by
  obtain ⟨here, found, runs⟩ := running
  obtain ⟨here', there, found', stepped, locals⟩ := eq_of_step taken
  by_cases same : index = other
  · subst same
    obtain rfl : here = here' := Option.some.inj (found.symm.trans found')
    exact ⟨there, by rw [locals, Function.update_self], runs.step stepped⟩
  · exact ⟨here, by rw [locals, Function.update_of_ne same, found], runs.others allowed⟩

/-- A program that exits with code 0 has reached its postcondition. -/
theorem Running.ends (running : family.Running program rely index args)
    (meets : program.Meets args rely guarantee post) {code : Nat}
    (exits : family.exits program index code = true) (zero : code % 256 = 0) :
    post family.world := by
  obtain ⟨here, found, runs⟩ := running
  rw [Family.exits, found, Option.any_some] at exits
  exact meets.ends _ _ _ runs exits zero

end Family

end CephGeoRep.Semantics
