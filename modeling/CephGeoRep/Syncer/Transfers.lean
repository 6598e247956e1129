import CephGeoRep.Syncer.Delivery
import CephGeoRep.Syncer.Memory
import CephGeoRep.Syncer.Snapshot

/-!
# What the children transfer

In a round in which no child is disturbed by a signal, a child that ends with code 0 has run
the sync program to its end: it neither ran the handler of the daemon nor failed in `execvp`.
-/

namespace CephGeoRep

open Semantics

/-- No child is killed while the round waits for it, none exits with code 0 before it has
reached the sync program, and none finds itself in the handler of the daemon. -/
def undisturbed (state : State) (choice : Choice) : Prop :=
  exitsOnly state choice ∧ signalsLate state choice

instance (state : State) (choice : Choice) : Decidable (undisturbed state choice) :=
  inferInstanceAs (Decidable (exitsOnly state choice ∧ signalsLate state choice))

namespace Child

/-- Ended with exit code 0, and perhaps waited for. -/
def finished (child : Child) : Bool :=
  match child.phase with
  | .zombie (.exited code) | .reaped (.exited code) => code % 256 == 0
  | _ => false

/-- In the sync program. -/
def sending (child : Child) : Bool :=
  match child.phase with
  | .program _ => true
  | _ => false

/-- Behind `sig_hdlr` only after its clean-up. -/
def LeavesClean (child : Child) : Prop :=
  ∀ code, child.phase = .leaving code → child.cleanedUp = true

variable {capacity : Nat} {child after : Child} {choice : ChildChoice}

theorem finished_of_succeeded (succeeded : child.succeeded = true) : child.finished = true := by
  rw [Child.succeeded] at succeeded
  rw [finished]
  split at succeeded
  · next code reaped => rwa [reaped]
  · cases succeeded

theorem outstanding_of_sending (sending : child.sending = true) : child.outstanding = true := by
  rw [Child.sending] at sending
  rw [Child.outstanding]
  split at sending
  · next unwritten here => rw [here]
  · cases sending

theorem LeavesClean.step (clean : child.LeavesClean)
    (taken : child.step capacity choice = some after) : after.LeavesClean := by
  intro code leaving
  unfold Child.step at taken
  cases choice with
  | deliver signal fatal =>
      simp only [Option.ite_none_right_eq_some, Option.some.injEq] at taken
      obtain ⟨_, rfl⟩ := taken
      refine clean code ?_
      cases here : child.phase <;> cases signal <;> cases fatal <;>
        simp_all [ChildPhase.deliver]
  | write count =>
      cases here : child.phase <;> simp only [here, reduceCtorEq] at taken
      simp only [Option.ite_none_right_eq_some, Option.some.injEq] at taken
      obtain ⟨_, rfl⟩ := taken
      cases leaving
  | leave =>
      cases here : child.phase <;>
        simp only [here, reduceCtorEq, Option.some.injEq] at taken <;> subst taken <;>
        cases leaving
  | handle removed =>
      simp only [Option.ite_none_right_eq_some, Option.some.injEq] at taken
      obtain ⟨_, rfl⟩ := taken
      rfl
  | _ =>
      simp only [Option.ite_none_right_eq_some, Option.some.injEq] at taken
      obtain ⟨_, rfl⟩ := taken
      cases leaving

/-- Only the exit of the program finishes a child that has stayed out of the handler. -/
theorem finished_of_step (clean : child.LeavesClean) (untouched : child.Untouched)
    (taken : child.step capacity choice = some after) (finished : after.finished = true) :
    ∃ code, choice = .exit code ∧ code % 256 = 0 ∧ child.sending = true ∧
      after.argv = child.argv := by
  unfold Child.step at taken
  cases choice with
  | exit code =>
      simp only [Option.ite_none_right_eq_some, Option.some.injEq] at taken
      obtain ⟨here, rfl⟩ := taken
      refine ⟨code, rfl, ?_, by rw [sending, here], rfl⟩
      simpa [Child.finished] using finished
  | leave =>
      cases here : child.phase <;>
        simp only [here, reduceCtorEq, Option.some.injEq] at taken <;> subst taken
      · exact absurd finished (by simp [Child.finished, checkShmem])
      · exact absurd (clean _ here) (by simp [untouched.cleanedUp])
  | deliver signal fatal =>
      simp only [Option.ite_none_right_eq_some, Option.some.injEq] at taken
      obtain ⟨⟨_, live⟩, rfl⟩ := taken
      exfalso
      rw [Child.live] at live
      cases here : child.phase <;> cases signal <;> cases fatal <;>
        simp_all [ChildPhase.deliver, Child.finished]
  | write count =>
      cases here : child.phase <;> simp only [here, reduceCtorEq] at taken
      simp only [Option.ite_none_right_eq_some, Option.some.injEq] at taken
      obtain ⟨_, rfl⟩ := taken
      cases finished
  | _ =>
      simp only [Option.ite_none_right_eq_some, Option.some.injEq] at taken
      obtain ⟨_, rfl⟩ := taken
      cases finished

/-- Only `execvp` starts a program. -/
theorem sending_of_step (taken : child.step capacity choice = some after)
    (sending : after.sending = true) :
    child.sending = true ∨ ∃ output, choice = .exec output := by
  unfold Child.step at taken
  cases choice with
  | exec output => exact .inr ⟨output, rfl⟩
  | write count =>
      cases here : child.phase <;> simp only [here, reduceCtorEq] at taken
      exact .inl (by rw [Child.sending, here])
  | deliver signal fatal =>
      simp only [Option.ite_none_right_eq_some, Option.some.injEq] at taken
      obtain ⟨_, rfl⟩ := taken
      refine .inl ?_
      rw [Child.sending] at sending ⊢
      cases here : child.phase <;> cases signal <;> cases fatal <;>
        simp_all [ChildPhase.deliver]
  | leave =>
      cases here : child.phase <;>
        simp only [here, reduceCtorEq, Option.some.injEq] at taken <;> subst taken <;>
        cases sending
  | _ =>
      simp only [Option.ite_none_right_eq_some, Option.some.injEq] at taken
      obtain ⟨_, rfl⟩ := taken
      cases sending

end Child

namespace State

variable {capacity : Nat} {guard : Machine.Guard State Choice} {state next : State}
  {choice : Choice} {child : Child}

/-- The children left to themselves. -/
structure Quiet (state : State) : Prop where
  clean : ∀ child ∈ state.children, child.LeavesClean
  untouched : ∀ child ∈ state.children, child.Untouched

theorem Quiet.of_move (quiet : state.Quiet) (late : signalsLate state choice)
    (move : Move capacity state choice next) : next.Quiet where
  clean child member := by
    cases origin_of_move move member with
    | kept listed => exact quiet.clean _ listed
    | forked => exact fun _ leaving => by cases leaving
    | reaped => exact fun _ leaving => by cases leaving
    | stepped _ found taken => exact (quiet.clean _ (List.mem_of_getElem? found)).step taken
    | @signaled old listed _ _ => exact quiet.clean old listed
  untouched child member :=
    untouched_of_origin quiet.untouched late (origin_of_move move member)

theorem quiet_invariant (late : ∀ state choice, guard state choice → signalsLate state choice) :
    (syncMachine capacity).Invariant guard Quiet where
  initial := by
    rintro _ ⟨tokenize, argMax, envpSize, config, rfl⟩
    exact ⟨List.forall_mem_nil _, List.forall_mem_nil _⟩
  preserved _ _ _ _ quiet allowed taken := quiet.of_move (late _ _ allowed) (moves_of_step taken)

/-- A finished child has been so before, or its program exits just now. -/
theorem finished_of_move (quiet : state.Quiet) (move : Move capacity state choice next)
    (member : child ∈ next.children) (finished : child.finished = true) :
    (∃ old ∈ state.children, old.finished = true ∧ old.argv = child.argv) ∨
      ∃ index old code, choice = .child index (.exit code) ∧ code % 256 = 0 ∧
        state.children[index]? = some old ∧ old.sending = true ∧ old.argv = child.argv := by
  cases origin_of_move move member with
  | kept listed => exact .inl ⟨child, listed, finished, rfl⟩
  | forked => cases finished
  | @reaped old status listed ended =>
      refine .inl ⟨old, listed, ?_, rfl⟩
      cases status with
      | exited code => simpa [Child.finished, ended] using finished
      | signaled signo coreDumped => cases finished
  | @stepped index old _ _ same found taken =>
      have listed := List.mem_of_getElem? found
      obtain ⟨code, rfl, zero, sending, argv⟩ :=
        Child.finished_of_step (quiet.clean _ listed) (quiet.untouched _ listed) taken finished
      exact .inr ⟨index, old, code, same, zero, found, sending, argv.symm⟩
  | @signaled old listed _ _ => exact .inl ⟨old, listed, finished, rfl⟩

/-- Where the child at an index comes from. -/
inductive Place (capacity : Nat) (state : State) (choice : Choice) (index : Nat) :
    Child → Prop where
  | kept {child : Child} (found : state.children[index]? = some child) :
      Place capacity state choice index child
  | forked {process : SyncProcess} {pid : Nat} {destination : CString} :
      Place capacity state choice index (Child.fork process pid destination)
  | reaped {child : Child} {status : WaitStatus} (found : state.children[index]? = some child) :
      Place capacity state choice index { child with phase := .reaped status }
  | stepped {old child : Child} {childChoice : ChildChoice}
      (same : choice = .child index childChoice) (found : state.children[index]? = some old)
      (taken : old.step capacity childChoice = some child) :
      Place capacity state choice index child
  | signaled {child : Child} (found : state.children[index]? = some child)
      (pending : List Signal) :
      Place capacity state choice index { child with pending := pending }

theorem place_of_set {index position : Nat} {old : Child}
    (place : Place capacity state choice position old)
    (found : (state.children.set position old)[index]? = some child) :
    Place capacity state choice index child := by
  rw [List.getElem?_set] at found
  split at found
  · next same =>
    split at found <;> cases found
    exact same ▸ place
  · exact .kept found

theorem place_of_append {index pid : Nat} {process : SyncProcess}
    (found : (state.children ++ [Child.fork process pid state.destination])[index]? =
      some child) : Place capacity state choice index child := by
  rw [List.getElem?_append] at found
  split at found
  · exact .kept found
  · rw [List.mem_singleton.mp (List.mem_of_getElem? found)]
    exact .forked

/-- A child keeps its index as long as its round lasts. -/
theorem place_of_move (accounted : state.Accounted) (move : Move capacity state choice next)
    {index : Nat} (found : next.children[index]? = some child) :
    Place capacity state choice index child := by
  have cleared : state.control.atRest = true → next.children = state.outstanding →
      Place capacity state choice index child := by
    intro rest children
    rw [children, accounted.outstanding_eq_nil rest] at found
    cases found
  cases move with
  | sync idle _ _ => exact cleared (by rw [idle]; rfl) rfl
  | newRound returned _ => exact cleared (by rw [returned]; rfl) rfl
  | launch _ _ _ => exact place_of_append found
  | relaunch _ _ _ => exact place_of_append found
  | failOver _ _ _ => exact place_of_append found
  | stray _ here _ _ => exact place_of_set (.reaped here) found
  | reap _ here _ => exact place_of_set (.reaped here) found
  | @returned position old status _ _ _ _ here _ _ handled =>
      have reaped : (state.reap position old status).children[index]? = some child := by
        cases handled <;> exact found
      exact place_of_set (.reaped here) reaped
  | kill _ =>
      rw [List.getElem?_map] at found
      obtain ⟨old, here, rfl⟩ := Option.map_eq_some_iff.mp found
      rw [sendSigint]
      split
      · exact .signaled here _
      · exact .kept here
  | child here taken => exact place_of_set (.stepped rfl here taken) found
  | signal here _ => exact place_of_set (.signaled here _) found
  | _ => exact .kept found

/-- A program that runs has been running, or has been executed just now. -/
theorem sending_of_place {index : Nat} (place : Place capacity state choice index child)
    (sending : child.sending = true) :
    ∃ old, state.children[index]? = some old ∧ old.argv = child.argv ∧
      (old.sending = true ∨ ∃ output, choice = .child index (.exec output)) := by
  cases place with
  | kept found => exact ⟨child, found, rfl, .inl sending⟩
  | forked => cases sending
  | reaped _ => cases sending
  | signaled found _ => exact ⟨_, found, rfl, .inl sending⟩
  | @stepped old _ childChoice same found taken =>
      refine ⟨old, found, (Child.continues_of_step taken).argv.symm, ?_⟩
      exact (Child.sending_of_step taken sending).imp_right fun ⟨output, exec⟩ =>
        ⟨output, exec ▸ same⟩

/-- The list of destinations is that of the constructor. -/
theorem names_of_move (move : Move capacity state choice next) :
    next.syncer.destinations.names = state.syncer.destinations.names := by
  cases move with
  | returned _ _ _ _ handled =>
      cases handled with
      | failOver => exact Destinations.advance_names _
      | _ => rfl
  | _ => rfl

/-- So are the program and its flags. -/
theorem command_of_move (move : Move capacity state choice next) :
    next.syncer.execBin = state.syncer.execBin ∧ next.syncer.garbage = state.syncer.garbage := by
  cases move with
  | returned _ _ _ _ handled => cases handled <;> exact ⟨rfl, rfl⟩
  | _ => exact ⟨rfl, rfl⟩

/-- The children send to destinations of the list. -/
def Destined (state : State) : Prop :=
  ∀ child ∈ state.children, child.destination ∈ state.syncer.destinations.names

/-- A child keeps the destination it was forked with. -/
theorem Destined.of_move (destined : state.Destined) (addressed : next.Addressed)
    (move : Move capacity state choice next) : next.Destined := by
  intro child member
  rw [names_of_move move]
  cases origin_of_move move member with
  | kept listed => exact destined child listed
  | forked =>
      rw [addressed.current _ member rfl, ← names_of_move move]
      exact next.syncer.destinations.star_mem
  | @reaped old _ listed _ => exact destined old listed
  | @stepped _ old _ _ _ found taken =>
      rw [(Child.continues_of_step taken).destination]
      exact destined old (List.mem_of_getElem? found)
  | @signaled old listed _ _ => exact destined old listed

theorem destined_invariant : (syncMachine capacity).Invariant guard Destined where
  initial := by
    rintro _ ⟨tokenize, argMax, envpSize, config, rfl⟩
    exact List.forall_mem_nil _
  preserved _ _ _ reachable destined allowed taken :=
    destined.of_move (addressed_invariant.of_reachable (reachable.next allowed taken))
      (moves_of_step taken)

end State

end CephGeoRep
