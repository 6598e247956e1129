import CephGeoRep.Semantics.Program
import CephGeoRep.Syncer.Transfers

/-!
# The programs of the children

`execvp` makes a child the sync program, which from then on takes steps of its own until it
exits. The programs of a round are a family under the indices of the children: if each one
meets its specification among the others, the children that have ended with code 0 have
reached their postconditions.
-/

namespace CephGeoRep

open Semantics

/-- A step of the program of a child. -/
structure ProgramEvent (Event : Type) where
  index : Nat
  event : Event

/-- `"$@"`: the arguments up to the terminating `NULL`, without the name of the program. -/
def operands (argv : List Arg) : List CString := (argv.takeWhile Option.isSome).reduceOption.tail

theorem operands_map (name : CString) (args : List CString) :
    operands (some name :: args.map some ++ [none]) = args := by
  have all : ∀ arg ∈ (name :: args).map some, arg.isSome = true := by simp
  rw [operands, ← List.map_cons, List.takeWhile_append_of_pos all,
    List.takeWhile_cons_of_neg (by decide), List.append_nil]
  simp [List.reduceOption]

namespace State

variable {Local World Event : Type}

/-- What a choice does to the programs of the children. -/
def execute (program : Program Arg Local World Event) (state : State) (choice : Choice)
    (family : Family Local World) : Family Local World :=
  match choice with
  | .child index (.exec _) =>
    match state.children[index]? with
    | some child => family.execute program index child.argv
    | none => family
  | _ => family

/-- The program of a child takes a step. -/
def advance (program : Program Arg Local World Event) (state : State)
    (event : ProgramEvent Event) (family : Family Local World) : Option (Family Local World) :=
  if state.children[event.index]?.any Child.sending then
    family.step program event.index event.event
  else none

/-- A child exits as its program may. -/
def exitsAs (program : Program Arg Local World Event) (family : Family Local World) :
    Choice → Prop
  | .child index (.exit code) => family.exits program index code = true
  | _ => True

instance (program : Program Arg Local World Event) (family : Family Local World)
    (choice : Choice) : Decidable (exitsAs program family choice) :=
  match choice with
  | .child _ choice =>
    match choice with
    | .exit _ => inferInstanceAs (Decidable (_ = _))
    | .resetSigint | .exec _ | .execFail _ | .write _ | .deliver _ _ | .leave | .handle _
    | .kill .. => .isTrue trivial
  | .sync .. | .fork _ | .forkFails | .wait .. | .noChildren | .kill | .afterRound
  | .deleteSnap _ | .signal .. => .isTrue trivial

/-- The programs of the children run, and meet their specifications. -/
def Performing (program : Program Arg Local World Event) (rely : World → World → Prop)
    (post : List Arg → World → Prop) (state : State) (family : Family Local World) : Prop :=
  ∀ (index : Nat) (child : Child), state.children[index]? = some child →
    child.sending = true → program.Meets child.argv rely rely (post child.argv) ∧
      family.Running program rely index child.argv

/-- The children that have ended with code 0 have reached their postconditions. -/
def Performed (post : List Arg → World → Prop) (state : State) (world : World) : Prop :=
  ∀ child ∈ state.children, child.finished = true → post child.argv world

variable {program : Program Arg Local World Event} {rely : World → World → Prop}
  {post : List Arg → World → Prop} {capacity : Nat} {state next : State} {choice : Choice}
  {family after : Family Local World} {world world' : World}

@[simp]
theorem execute_world (program : Program Arg Local World Event) (state : State)
    (choice : Choice) (family : Family Local World) :
    (state.execute program choice family).world = family.world := by
  unfold execute
  split
  · split <;> rfl
  · rfl

/-- Without children to wait for no program runs. -/
theorem performing_of_none (program : Program Arg Local World Event)
    (rely : World → World → Prop) (post : List Arg → World → Prop)
    (gone : state.outstanding = []) (family : Family Local World) :
    state.Performing program rely post family := by
  intro index child found sending
  have listed : child ∈ state.outstanding :=
    List.mem_filter.mpr ⟨List.mem_of_getElem? found, Child.outstanding_of_sending sending⟩
  rw [gone] at listed
  cases listed

theorem performing_of_childless (program : Program Arg Local World Event)
    (rely : World → World → Prop) (post : List Arg → World → Prop)
    (childless : state.children = []) (family : Family Local World) :
    state.Performing program rely post family :=
  performing_of_none program rely post (by rw [outstanding, childless]; rfl) family

theorem performed_of_childless (post : List Arg → World → Prop) (childless : state.children = [])
    (world : World) : state.Performed post world := by
  intro child member
  simp [childless] at member

/-- Only `execvp` touches the program under an index. -/
theorem execute_of_ne {index : Nat} (other : ∀ output, choice ≠ .child index (.exec output))
    {args : List Arg} (running : family.Running program rely index args) :
    (state.execute program choice family).Running program rely index args := by
  unfold execute
  split
  · next position output =>
    split
    · exact running.execute (fun same => other output (by rw [same])) _
    · exact running
  · exact running

/-- The children keep their programs, and start those that meet their specifications. -/
theorem Performing.of_move (performing : state.Performing program rely post family)
    (accounted : state.Accounted)
    (meets : ∀ child ∈ state.children, program.Meets child.argv rely rely (post child.argv))
    (move : Move capacity state choice next) :
    next.Performing program rely post (state.execute program choice family) := by
  intro index child found sending
  obtain ⟨old, found', argv, origin⟩ :=
    sending_of_place (place_of_move accounted move found) sending
  rw [← argv]
  refine ⟨meets old (List.mem_of_getElem? found'), ?_⟩
  by_cases executed : ∃ output, choice = .child index (.exec output)
  · obtain ⟨output, rfl⟩ := executed
    have started : state.execute program (.child index (.exec output)) family =
        family.execute program index old.argv := by
      rw [execute, found']
    rw [started]
    exact family.running_execute program rely index old.argv
  · have before := origin.resolve_right executed
    exact execute_of_ne (fun output same => executed ⟨output, same⟩)
      (performing index old found' before).2

/-- A child that ends with code 0 was its program, which has reached its postcondition. -/
theorem Performed.of_move (performed : state.Performed post family.world)
    (performing : state.Performing program rely post family) (quiet : state.Quiet)
    (exits : exitsAs program family choice) (move : Move capacity state choice next) :
    next.Performed post family.world := by
  intro child member finished
  rcases finished_of_move quiet move member finished with
    ⟨old, listed, before, argv⟩ | ⟨index, old, code, rfl, zero, found, sending, argv⟩
  · exact argv ▸ performed old listed before
  · obtain ⟨meets, running⟩ := performing index old found sending
    exact argv ▸ running.ends meets exits zero

theorem eq_of_advance {event : ProgramEvent Event}
    (taken : state.advance program event family = some after) :
    ∃ child, state.children[event.index]? = some child ∧ child.sending = true ∧
      family.step program event.index event.event = some after := by
  rw [advance] at taken
  split at taken
  · next runs =>
    obtain ⟨child, found, sending⟩ := (Option.any_eq_true _ _).mp runs
    exact ⟨child, found, sending, taken⟩
  · cases taken

/-- A step of a program is one that the others rely on. -/
theorem Performing.of_advance (performing : state.Performing program rely post family)
    {event : ProgramEvent Event} (taken : state.advance program event family = some after) :
    state.Performing program rely post after ∧ rely family.world after.world := by
  obtain ⟨mover, found, sending, stepped⟩ := eq_of_advance taken
  obtain ⟨meets, running⟩ := performing _ mover found sending
  have allowed := running.keeps meets stepped
  refine ⟨fun index child found sending => ?_, allowed⟩
  obtain ⟨meets, running⟩ := performing index child found sending
  exact ⟨meets, running.step stepped allowed⟩

/-- The command line of a child, with the paths of its files. -/
theorem map_pathAt {batch : List Nat} (inside : ∀ position ∈ batch, position < state.queue.length) :
    batch.map (pathAt state.queue) = (batch.filterMap (pathAt state.queue)).map some := by
  induction batch with
  | nil => rfl
  | cons position batch ih =>
      have here := inside position List.mem_cons_self
      have path : pathAt state.queue position = some state.queue[position].path := by
        simp [pathAt, here]
      rw [List.map_cons, List.filterMap_cons, path, List.map_cons,
        ih fun other listed => inside other (.tail _ listed)]

/-- A postcondition that the others keep stays. -/
theorem Performed.mono (performed : state.Performed post world)
    (stable : ∀ argv, post argv world → post argv world') : state.Performed post world' :=
  fun child member finished => stable _ (performed child member finished)

end State

end CephGeoRep
