import CephGeoRep.Syncer.Accounting

/-!
# The children of a failed round

A round that ends with all processes erased, or with all children reaped, leaves no child
behind. The other returns of `handle_returned_procs`, and a failing `fork`, end the daemon
on the spot: `l::exit` removes the snapshot, whichever children still read from it.
-/

namespace CephGeoRep

open Semantics

namespace State

/-- The exit codes of the sync program with which `handle_returned_procs` returns
`SYNC_FAILED`. -/
def fatalError (state : State) (exitCode : Nat) (message : CString) : Bool :=
  let rsync := endsWith state.syncer.execBin "rsync".toList
  if exitCode = protocolStream ∧ rsync ∧ contains message "command not found".toList then true
  else if exitCode ∈ [protocolStream, partialXfr, timeoutSR, timeoutConn] then !rsync
  else exitCode ≠ sshFail

/-- `handle_returned_procs` returns `SYNC_FAILED` when `wait` has returned the child of
`process` with `status`. -/
def fatal (state : State) (process : SyncProcess) (status : WaitStatus) (logOpens : Bool) :
    Bool :=
  let exitCode := wexitstatus status.encode
  if exitCode = 0 then false
  else
    match state.execError process with
    | some errno =>
      if exitCode = checkShmem then errno ≠ e2big
      else state.fatalError exitCode (state.logErrors process logOpens)
    | none => state.fatalError exitCode (state.logErrors process logOpens)

/-- The `wait` that returns the child at `index` ends the round with `SYNC_FAILED`. -/
def endsRound (state : State) (index : Nat) (logOpens : Bool) : Bool :=
  match state.control, state.children[index]? with
  | .waiting, some child =>
    match child.phase with
    | .zombie status =>
      match state.procs.find? fun process => process.pid == child.pid with
      | some process => (state.reap index child status).fatal process status logOpens
      | none => false
    | _ => false
  | _, _ => false

end State

/-- A child that fails for good is the last one that is outstanding, and there is none
when `fork` or `mmap` fails. -/
def failsLast (state : State) : Choice → Prop
  | .forkFails => state.outstanding = []
  | .wait index logOpens => state.endsRound index logOpens = true → state.outstandingCount = 1
  | _ => True

instance (state : State) : ∀ choice, Decidable (failsLast state choice)
  | .forkFails => inferInstanceAs (Decidable (state.outstanding = []))
  | .wait index logOpens => inferInstanceAs
      (Decidable (state.endsRound index logOpens = true → state.outstandingCount = 1))
  | .sync .. | .fork _ | .noChildren | .kill | .afterRound | .deleteSnap _ | .child ..
  | .signal .. =>
    .isTrue trivial

namespace State

variable {capacity : Nat} {state next : State} {choice : Choice} {index : Nat} {logOpens : Bool}

/-- Going on never ends in a failure. -/
theorem continueWith_goesOn {loop : List Nat → Control} (isLoop : IsLoop loop)
    (todo : List Nat) :
    (state.continueWith loop todo).control ≠ .exited ∧
      (state.continueWith loop todo).control ≠ .returned .syncFailed := by
  apply holds_continueWith fun control => control ≠ .exited ∧ control ≠ .returned .syncFailed
  · rcases isLoop with rfl | rfl | rfl <;> simp
  · simp
  · simp

/-- The branch for errors of the sync program, by what becomes of the round. -/
theorem syncError_eq (process : SyncProcess) (exitCode : Nat) (message : CString) :
    state.syncError process exitCode message =
      if state.fatalError exitCode message = true then state.failRound
      else if exitCode = sshFail then state.park process
      else { state with control := .relaunching [process.id] } := by
  unfold syncError fatalError
  generalize endsWith state.syncer.execBin "rsync".toList = rsync
  generalize contains message "command not found".toList = missing
  simp only
  by_cases unknown : exitCode = protocolStream ∧ rsync = true ∧ missing = true
  · rw [if_pos unknown, if_pos unknown, if_pos rfl]
  rw [if_neg unknown, if_neg unknown]
  by_cases code : exitCode ∈ [protocolStream, partialXfr, timeoutSR, timeoutConn]
  · have reached : exitCode ≠ sshFail := fun same => absurd (same ▸ code) (by decide)
    rw [if_pos code, if_pos code, if_neg reached]
    cases rsync <;> rfl
  · rw [if_neg code, if_neg code]
    by_cases ssh : exitCode = sshFail
    · simp only [ssh, ne_eq, not_true_eq_false, decide_false, Bool.false_eq_true, ↓reduceIte]
    · simp only [ssh, ne_eq, not_false_eq_true, decide_true, ↓reduceIte]

/-- Errors of the sync program end the round only with the exit codes listed. -/
theorem syncError_control {process : SyncProcess} {exitCode : Nat} {message : CString}
    (harmless : state.fatalError exitCode message = false) :
    (state.syncError process exitCode message).control ≠ .returned .syncFailed := by
  rw [syncError_eq, harmless, if_neg Bool.false_ne_true]
  split
  · rw [park]
    split <;> simp [tryNextDestination]
  · simp

/-- The body of the wait loop fails in the branches listed. -/
theorem handleReturned_of_fatal {process : SyncProcess} {status : WaitStatus}
    (fatal : state.fatal process status logOpens = true) :
    state.handleReturned process status logOpens = state.failRound := by
  unfold State.fatal at fatal
  unfold handleReturned
  simp only at fatal ⊢
  split at fatal
  · cases fatal
  · next nonzero =>
    rw [if_neg nonzero]
    cases error : state.execError process with
    | some errno =>
        simp only [error] at fatal ⊢
        split at fatal
        · next code =>
          have other : errno ≠ e2big := by simpa using fatal
          rw [if_pos code, execFailed, if_neg other]
        · next code => rw [if_neg code, syncError_eq, if_pos fatal]
    | none =>
        simp only [error] at fatal ⊢
        rw [syncError_eq, if_pos fatal]

/-- The body of the wait loop fails only in the branches listed. -/
theorem handleReturned_control {process : SyncProcess} {status : WaitStatus}
    (harmless : state.fatal process status logOpens = false) :
    (state.handleReturned process status logOpens).control ≠ .returned .syncFailed := by
  unfold State.fatal at harmless
  unfold handleReturned
  simp only at harmless ⊢
  split at harmless
  · next zero =>
    rw [if_pos zero, succeed]
    split <;> exact (continueWith_goesOn relaunching_isLoop _).2
  · next nonzero =>
    rw [if_neg nonzero]
    cases error : state.execError process with
    | some errno =>
        simp only [error] at harmless ⊢
        split at harmless
        · next code =>
          have big : errno = e2big := by simpa using harmless
          rw [if_pos code, execFailed, if_pos big]
          simp
        · next code =>
          rw [if_neg code]
          exact syncError_control harmless
    | none =>
        simp only [error] at harmless ⊢
        exact syncError_control harmless

/-- What a `wait` does that ends the round. -/
theorem waitStep_of_endsRound (ends : state.endsRound index logOpens = true) :
    ∃ child status, state.children[index]? = some child ∧ child.phase = .zombie status ∧
      state.waitStep index logOpens = some (state.reap index child status).failRound := by
  unfold endsRound at ends
  split at ends
  · next child waiting found =>
    split at ends
    · next status ended =>
      split at ends
      · next process owner =>
        refine ⟨child, status, found, ended, ?_⟩
        simp only [waitStep, found, ended, waiting, owner]
        rw [handleReturned_of_fatal ends]
      · cases ends
    · cases ends
  · cases ends

/-- A `wait` fails the round only so. -/
theorem endsRound_of_waitStep (taken : state.waitStep index logOpens = some next)
    (failed : next.control = .returned .syncFailed) : state.endsRound index logOpens = true := by
  rw [waitStep] at taken
  split at taken
  · next child found =>
    split at taken
    · next status ended =>
      simp only at taken
      split at taken
      · next waiting =>
        split at taken
        · next process owner =>
          cases taken
          simp only [endsRound, waiting, found, ended, owner]
          exact Bool.eq_true_of_not_eq_false fun harmless => handleReturned_control harmless failed
        · cases taken
          cases waiting.symm.trans failed
      · next reaping =>
        cases taken
        cases reaping.symm.trans failed
      · cases taken
    · cases taken
  · cases taken

/-- No child of a failed round is outstanding. -/
def Childless (state : State) : Prop :=
  state.control = .exited ∨ state.control = .returned .syncFailed → state.outstanding = []

theorem outstanding_of_countP {children : List Child}
    (same : children.countP Child.outstanding = state.outstandingCount)
    (none : state.outstanding = []) : children.filter Child.outstanding = [] := by
  rw [← List.length_eq_zero_iff, ← List.countP_eq_length_filter, same, outstandingCount_eq, none]
  rfl

/-- Every transition that fails last keeps it so. -/
theorem Childless.of_step (childless : state.Childless) (accounted : state.Accounted)
    (allowed : failsLast state choice) (taken : state.step capacity choice = some next) :
    next.Childless := by
  intro failed
  cases moves_of_step taken with
  | forkFails => exact allowed
  | returned waiting found ended owner handled =>
      have left := outstandingCount_reap found ended
      cases handled with
      | finished | more =>
          exact absurd failed (not_or.mpr (continueWith_goesOn relaunching_isLoop _))
      | fail =>
          have last := allowed (endsRound_of_waitStep taken rfl)
          rw [last] at left
          exact List.length_eq_zero_iff.mp (outstandingCount_eq.symm.trans (Nat.succ.inj left))
      | tooBig | retry | park => simp at failed
      | failOver => simp [tryNextDestination] at failed
  | noneLeft _ none => exact none
  | @failure result returned unsuccessful =>
      cases result with
      | syncSuccess => exact absurd rfl unsuccessful
      | syncFailed => exact childless (.inr returned)
      | incHeadroom => exact accounted.outstanding_eq_nil (by rw [returned]; rfl)
  | notDeleted synced => exact accounted.outstanding_eq_nil (by rw [synced]; rfl)
  | child found moved =>
      have continues := Child.continues_of_step moved
      exact outstanding_of_countP (countP_set_of_continues found continues.outstanding)
        (childless failed)
  | signal found live =>
      exact outstanding_of_countP (countP_set_of_continues found rfl) (childless failed)
  | launch => exact absurd failed (not_or.mpr (continueWith_goesOn launching_isLoop _))
  | relaunch => exact absurd failed (not_or.mpr (continueWith_goesOn relaunching_isLoop _))
  | failOver => exact absurd failed (not_or.mpr (continueWith_goesOn failingOver_isLoop _))
  | stray waiting => simp [State.reap, waiting] at failed
  | reap reaping => simp [State.reap, reaping] at failed
  | sync | newRound => simp [launchProcs, startRound] at failed
  | dangling | allReaped | kill | killed | success | deleted => simp at failed

/-- No child of a failed round is outstanding in the runs whose failures come last. -/
theorem childless_invariant : (syncMachine capacity).Invariant failsLast Childless where
  initial := by
    rintro state ⟨tokenize, argMax, envpSize, config, rfl⟩ _
    rfl
  preserved _ _ _ reachable childless allowed taken :=
    childless.of_step (accounted_invariant.of_reachable reachable) allowed taken

/-- Behind `Syncer::sync` no child is outstanding, however the daemon goes on. -/
theorem outstanding_of_ended
    (reachable : (syncMachine capacity).Reachable failsLast state)
    (ended : state.control = .idle ∨ state.control = .synced ∨ state.control = .exited) :
    state.outstanding = [] := by
  have accounted := accounted_invariant.of_reachable reachable
  rcases ended with idle | synced | exited
  · exact accounted.outstanding_eq_nil (by rw [idle]; rfl)
  · exact accounted.outstanding_eq_nil (by rw [synced]; rfl)
  · exact childless_invariant.of_reachable reachable (.inl exited)

/-- A failure that does not come last removes the snapshot from a child: at once, or when
`sync` looks at the result. -/
theorem exits_of_not_failsLast (taken : state.step capacity choice = some next)
    (early : ¬ failsLast state choice) :
    next.outstanding ≠ [] ∧
      (next.control = .exited ∧ next.snapshot = false ∨
        next.control = .returned .syncFailed ∧
          next.step capacity .afterRound = some next.exitFailure) := by
  cases choice with
  | forkFails =>
      cases moves_of_step taken
      exact ⟨early, .inl ⟨rfl, rfl⟩⟩
  | wait index logOpens =>
      rw [failsLast, Classical.not_imp] at early
      obtain ⟨child, status, found, ended, waited⟩ := waitStep_of_endsRound early.1
      obtain rfl : (state.reap index child status).failRound = next :=
        Option.some.inj (waited.symm.trans taken)
      refine ⟨fun none => early.2 ?_, .inr ⟨rfl, rfl⟩⟩
      have left := outstandingCount_reap found ended
      have zero : (state.reap index child status).outstandingCount = 0 :=
        outstandingCount_eq.trans (List.length_eq_zero_iff.mpr none)
      omega
  | _ => exact absurd trivial early

end State

end CephGeoRep
