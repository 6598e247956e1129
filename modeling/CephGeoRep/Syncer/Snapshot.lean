import CephGeoRep.Syncer.Bookkeeping

/-!
# Who removes the snapshot

A forked child runs with the handlers of the daemon until it resets SIGINT and
executes the sync program. A signal that arrives earlier makes the child write the
watermark and delete the snapshot its siblings read from; a child that all signals
find later does neither.
-/

namespace CephGeoRep

open Semantics

/-- `signal` no longer leads to the handler of the daemon: `signal(SIGINT, SIG_DFL)`
did that for SIGINT, `execvp` does it for the others. -/
def ChildPhase.pastHandler (signal : Signal) : ChildPhase → Bool
  | .forked => false
  | .reset | .failed =>
    match signal with
    | .int => true
    | _ => false
  | _ => true

/-- Signals find the children past the handler of the daemon. -/
def signalsLate (state : State) : Choice → Prop
  | .child index (.deliver signal _) =>
    (state.children[index]?.all fun child => child.phase.pastHandler signal) = true
  | _ => True

instance (state : State) (choice : Choice) : Decidable (signalsLate state choice) :=
  match choice with
  | .child _ choice =>
    match choice with
    | .deliver _ _ => inferInstanceAs (Decidable (_ = _))
    | .resetSigint | .exec _ | .execFail _ | .write _ | .exit _ | .leave | .handle _
    | .kill .. => .isTrue trivial
  | .sync .. | .fork _ | .forkFails | .wait .. | .noChildren | .kill | .afterRound
  | .deleteSnap _ | .signal .. => .isTrue trivial

/-- Between the creation of the snapshot and the end of the iteration, unless the
daemon is failing. -/
def Control.syncing : Control → Bool
  | .idle | .exited | .undefined => false
  | _ => true

/-- Neither in the handler of the daemon nor behind it. -/
structure Child.Untouched (child : Child) : Prop where
  phase : child.phase ≠ .handler
  cleanedUp : child.cleanedUp = false

/-- A child that no signal finds too early stays out of the handler. -/
theorem Child.Untouched.step {capacity : Nat} {child after : Child} {choice : ChildChoice}
    (untouched : child.Untouched)
    (late : ∀ signal fatal, choice = .deliver signal fatal →
      child.phase.pastHandler signal = true)
    (taken : child.step capacity choice = some after) :
    after.Untouched ∧ choice ≠ .handle true := by
  unfold Child.step at taken
  cases choice with
  | deliver signal fatal =>
      simp only [Option.ite_none_right_eq_some, Option.some.injEq] at taken
      obtain ⟨_, rfl⟩ := taken
      have past := late signal fatal rfl
      have phase := untouched.phase
      refine ⟨⟨?_, untouched.cleanedUp⟩, by simp⟩
      cases here : child.phase <;> rw [here] at past phase <;> cases signal <;> cases fatal <;>
        simp_all [ChildPhase.deliver, ChildPhase.pastHandler]
  | handle removed =>
      simp only [Option.ite_none_right_eq_some] at taken
      exact absurd taken.1 untouched.phase
  | write count =>
      cases phase : child.phase <;> simp only [phase, reduceCtorEq] at taken
      simp only [Option.ite_none_right_eq_some, Option.some.injEq] at taken
      obtain ⟨_, rfl⟩ := taken
      exact ⟨⟨by simp, untouched.cleanedUp⟩, by simp⟩
  | leave =>
      cases phase : child.phase <;>
        simp only [phase, reduceCtorEq, Option.some.injEq] at taken <;> subst taken <;>
        exact ⟨⟨by simp, untouched.cleanedUp⟩, by simp⟩
  | _ =>
      simp only [Option.ite_none_right_eq_some, Option.some.injEq] at taken
      obtain ⟨_, rfl⟩ := taken
      exact ⟨⟨by simp, untouched.cleanedUp⟩, by simp⟩

namespace State

/-- No child has run the handler, and the snapshot is there while it is needed. -/
structure Unspoiled (state : State) : Prop where
  children : ∀ child ∈ state.children, child.Untouched
  snapshot : state.control.syncing = true → state.snapshot = true

variable {capacity : Nat} {state next : State} {loop : List Nat → Control} {todo : List Nat}
  {index : Nat} {child : Child}

/-- Children stay untouched as long as their signals are late. -/
theorem untouched_of_origin {choice : Choice}
    (children : ∀ child ∈ state.children, child.Untouched) (late : signalsLate state choice)
    (origin : Origin capacity state choice child) : child.Untouched := by
  cases origin with
  | kept member => exact children _ member
  | forked => exact ⟨nofun, rfl⟩
  | reaped member _ => exact ⟨nofun, (children _ member).cleanedUp⟩
  | signaled member _ _ => exact ⟨(children _ member).phase, (children _ member).cleanedUp⟩
  | stepped same found taken =>
      refine ((children _ (List.mem_of_getElem? found)).step (fun signal fatal deliver => ?_)
        taken).1
      subst same deliver
      simpa [signalsLate, found] using late

/-- Every transition whose signals are late keeps the snapshot. -/
theorem Unspoiled.of_move {choice : Choice} (unspoiled : state.Unspoiled)
    (late : signalsLate state choice) (move : Move capacity state choice next) :
    next.Unspoiled := by
  refine ⟨fun child member => untouched_of_origin unspoiled.children late
    (origin_of_move move member), fun syncing => ?_⟩
  have before := unspoiled.snapshot
  cases move with
  | sync _ _ _ => rfl
  | newRound returned _ => exact before (by rw [returned]; rfl)
  | launch control _ _ => exact before (by rw [control]; rfl)
  | relaunch control _ _ => exact before (by rw [control]; rfl)
  | failOver control _ _ => exact before (by rw [control]; rfl)
  | stray waiting _ _ _ => exact before (by rw [waiting]; rfl)
  | reap reaping _ _ => exact before (by rw [reaping]; rfl)
  | returned waiting _ _ _ handled =>
      have kept := before (by rw [waiting]; rfl)
      cases handled <;> exact kept
  | noneLeft waiting _ => exact before (by rw [waiting]; rfl)
  | allReaped reaping _ => exact before (by rw [reaping]; rfl)
  | kill killing => exact before (by rw [killing]; rfl)
  | killed killing => exact before (by rw [killing]; rfl)
  | success returned => exact before (by rw [returned]; rfl)
  | child found taken =>
      have untouched := unspoiled.children _ (List.mem_of_getElem? found)
      have quiet := (untouched.step (fun signal fatal deliver => ?_) taken).2
      · simp [before syncing, quiet]
      · subst deliver
        simpa [signalsLate, found] using late
  | signal _ _ => exact before syncing
  | _ => cases syncing

/-- The snapshot is kept in every run whose signals are late. -/
theorem unspoiled_invariant : (syncMachine capacity).Invariant signalsLate Unspoiled where
  initial := by
    rintro state ⟨tokenize, argMax, envpSize, config, rfl⟩
    exact ⟨fun child member => (by cases member), nofun⟩
  preserved _ _ _ _ unspoiled late taken := unspoiled.of_move late (moves_of_step taken)

/-- While all signals find the children late, no child runs the handler of the daemon,
and the snapshot exists as long as `sync` runs, in particular when batches are
relaunched with more headroom. A signal that finds a child early can make it delete
the snapshot in its next two steps. -/
theorem snapshot_of_reachable (reachable : (syncMachine capacity).Reachable signalsLate state) :
    (∀ child ∈ state.children, child.phase ≠ .handler ∧ child.cleanedUp = false) ∧
    (state.control.syncing = true → state.snapshot = true) ∧
    (∀ index child signal fatal, state.children[index]? = some child → child.live = true →
      signal ∈ child.pending → child.phase.pastHandler signal = false →
      ∃ final, (syncMachine capacity).Steps Machine.unguarded state
          [.child index (.deliver signal fatal), .child index (.handle true)] final ∧
        final.control = state.control ∧ final.snapshot = false ∧
        ∃ child ∈ final.children, child.cleanedUp = true) := by
  have unspoiled := unspoiled_invariant.of_reachable reachable
  refine ⟨fun child member => ?_, unspoiled.snapshot, ?_⟩
  · have untouched := unspoiled.children child member
    exact ⟨untouched.phase, untouched.cleanedUp⟩
  · intro index child signal fatal found live pending early
    have handler : child.phase.deliver signal fatal = .handler := by
      cases here : child.phase <;> rw [here] at early <;> cases signal <;>
        simp_all [ChildPhase.deliver, ChildPhase.pastHandler]
    obtain ⟨bound, _⟩ := List.getElem?_eq_some_iff.mp found
    set caught : Child := { child with
      pending := child.pending.erase signal, phase := .handler } with caughtDef
    set cleaned : Child := { caught with phase := .leaving 0, cleanedUp := true } with cleanedDef
    have delivered : state.step capacity (.child index (.deliver signal fatal)) =
        some { state with children := state.children.set index caught } := by
      simp [step, found, Child.step, pending, live, handler, caughtDef]
    have handled : ({ state with children := state.children.set index caught } : State).step
        capacity (.child index (.handle true)) =
        some { state with children := state.children.set index cleaned, snapshot := false } := by
      simp [step, bound, Child.step, caughtDef, cleanedDef]
    exact ⟨_, (steps_of_step trivial delivered).trans (steps_of_step trivial handled), rfl, rfl,
      cleaned, List.mem_set bound _, rfl⟩

/-- `execvp` fails with E2BIG for the first child when the second has reset SIGINT. -/
def lateRun : List Choice :=
  let files := [plainFile "/s/./a".toList 1, plainFile "/s/./b".toList 2]
  [.sync files files, .fork 11, .fork 12, .child 0 .resetSigint, .child 0 (.execFail e2big),
    .child 0 .leave, .wait 0 true, .child 1 .resetSigint, .kill, .kill,
    .child 1 (.deliver .int true), .wait 1 true, .noChildren, .afterRound]

theorem snapshot_of_lateRun :
    ∃ state : State, state.control = .launching [0, 1] ∧
      state.syncer.maxMemUsage + memLimHeadroom = 2097152 - 1024 - memLimHeadroom ∧
      state.snapshot = true := by
  have executed : ((syncMachine 4).run signalsLate (rsyncDaemon 2 "a:b".toList) lateRun).any
      (fun state => decide (state.control = .launching [0, 1] ∧
        state.syncer.maxMemUsage + memLimHeadroom = 2097152 - 1024 - memLimHeadroom)) = true := by
    decide +kernel
  obtain ⟨state, reachable, ended⟩ := Machine.exists_of_run (rsyncDaemon_initial 2 _) executed
  obtain ⟨launching, headroom⟩ := of_decide_eq_true ended
  refine ⟨state, launching, headroom, ?_⟩
  exact (snapshot_of_reachable reachable).2.1 (by rw [launching]; rfl)

/-- The SIGINT of the kill loop finds the second child right behind `fork`. -/
def earlyRun : List Choice :=
  let files := [plainFile "/s/./a".toList 1, plainFile "/s/./b".toList 2]
  [.sync files files, .fork 11, .fork 12, .child 0 .resetSigint, .child 0 (.execFail e2big),
    .child 0 .leave, .wait 0 true, .kill, .kill, .child 1 (.deliver .int true),
    .child 1 (.handle true), .child 1 .leave, .wait 1 true, .noChildren, .afterRound]

/-- The batches are about to be relaunched from a snapshot that a child has deleted. -/
theorem spoiled_of_earlyRun :
    ∃ state, (syncMachine 4).Reachable freshPids state ∧
      state.control = .launching [0, 1] ∧ state.snapshot = false := by
  have executed : ((syncMachine 4).run freshPids (rsyncDaemon 2 "a:b".toList) earlyRun).any
      (fun state => decide (state.control = .launching [0, 1] ∧ state.snapshot = false)) =
        true := by
    decide +kernel
  obtain ⟨state, reachable, ended⟩ := Machine.exists_of_run (rsyncDaemon_initial 2 _) executed
  exact ⟨state, reachable, of_decide_eq_true ended⟩

end State

end CephGeoRep
