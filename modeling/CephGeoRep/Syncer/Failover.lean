import CephGeoRep.Syncer.Bookkeeping

/-!
# When a failover stalls

`num_ssh_fails_to_inc` is the number of processes a round starts with. Once a
process has finished, the others can all be parked without reaching it: nothing
relaunches them, and `wait` finds no child. A round whose last unparked process
never ends so does not stall.
-/

namespace CephGeoRep

open Semantics

/-- Exited with `SSH_FAIL` and not waited for yet. -/
def Child.sshFailed (child : Child) : Bool :=
  match child.phase with
  | .zombie (.exited code) => code % 256 == sshFail
  | _ => false

/-- All processes but one are parked, and fewer are left than the round started with. -/
def State.lastUnparked (state : State) : Bool :=
  decide (state.control = .waiting) &&
    state.sshFailProcs.length + 1 == state.procs.length &&
    decide (state.procs.length < state.numSshFailsToInc)

/-- Pids are fresh, and once a process has finished, the last process that is not
parked does not end with `SSH_FAIL`. -/
def lastSucceeds (state : State) (choice : Choice) : Prop :=
  freshPids state choice ∧
    match choice with
    | .wait index _ =>
      state.lastUnparked = true →
        (state.children[index]?.all fun child => !child.sshFailed) = true
    | _ => True

instance (state : State) (choice : Choice) : Decidable (lastSucceeds state choice) :=
  match choice with
  | .wait .. => inferInstanceAs (Decidable (_ ∧ (_ → _)))
  | .fork _ => inferInstanceAs (Decidable (_ ∧ True))
  | .sync .. | .forkFails | .noChildren | .kill | .afterRound | .deleteSnap _ | .child ..
  | .signal .. => .isTrue ⟨trivial, trivial⟩

namespace State

variable {capacity : Nat} {state next : State} {loop : List Nat → Control} {todo : List Nat}
  {process : SyncProcess} {index : Nat} {child : Child} {status : WaitStatus}

/-- At the `wait` some process is not parked. -/
def Unparked (state : State) : Prop :=
  state.control = .waiting → state.sshFailProcs.length < state.procs.length

theorem unparked_of_control (differs : next.control ≠ .waiting) : next.Unparked :=
  fun waiting => absurd waiting differs

/-- A loop that goes on leaves one process unparked if it has started one. -/
theorem unparked_continueWith (isLoop : IsLoop loop)
    (room : todo = [] → state.procs ≠ [] → state.sshFailProcs.length < state.procs.length) :
    (state.continueWith loop todo).Unparked := by
  cases todo with
  | nil =>
      intro waiting
      refine room rfl fun gone => ?_
      simp [continueWith, loopHead, gone] at waiting
  | cons first rest =>
      apply unparked_of_control
      rcases isLoop with rfl | rfl | rfl <;> simp [continueWith]

/-- The process started last was not parked. -/
theorem Accounted.unparked_start {id : Nat} (accounted : state.Accounted) (isLoop : IsLoop loop)
    (control : state.control = loop (id :: todo)) (children : List Child)
    (formed : List (Nat × List Nat)) :
    (continueWith { state.setProc process with children := children, formed := formed }
      loop todo).Unparked := by
  have count := accounted.count
  simp only [childless_of_loop isLoop control, List.length_append, List.length_cons] at count
  apply unparked_continueWith isLoop
  intro _ _
  have same := length_procs_setProc state process
  simp only [setProc] at same ⊢
  omega

theorem sshFailed_of_code (ended : child.phase = .zombie status)
    (code : wexitstatus status.encode = sshFail) : child.sshFailed = true := by
  rw [Child.sshFailed]
  rw [ended]
  cases status with
  | exited exitCode => simpa using code
  | signaled signo coreDumped =>
      rw [wexitstatus_signaled] at code
      cases code

/-- The body of the wait loop leaves a process unparked, unless the last one fails. -/
theorem unparked_handled {exitCode : Nat} (handled : Handled state process exitCode next)
    (room : state.outstandingCount + state.sshFailProcs.length + 1 ≤ state.procs.length)
    (last : exitCode = sshFail → state.sshFailProcs.length + 1 = state.procs.length →
      state.numSshFailsToInc ≤ state.procs.length) : next.Unparked := by
  cases handled with
  | finished _ _ =>
      apply unparked_continueWith relaunching_isLoop
      intro _ left
      exact List.length_pos_iff.mpr left
  | more _ _ => exact unparked_of_control nofun
  | tooBig _ _ _ => exact unparked_of_control nofun
  | fail _ _ => exact unparked_of_control nofun
  | retry _ _ => exact unparked_of_control nofun
  | failOver _ _ => exact unparked_of_control nofun
  | park code few =>
      intro _
      simp only [List.length_append, List.length_singleton]
      by_cases all : state.sshFailProcs.length + 1 = state.procs.length
      · have enough := last code all
        omega
      · omega

/-- Every transition under the guard leaves a process unparked. -/
theorem Unparked.of_move {choice : Choice} (unparked : state.Unparked)
    (accounted : state.Accounted) (allowed : lastSucceeds state choice)
    (move : Move capacity state choice next) : next.Unparked := by
  cases move with
  | sync _ _ _ => exact unparked_of_control nofun
  | newRound _ _ => exact unparked_of_control nofun
  | launch control _ _ =>
      rw [launch_eq]
      exact accounted.unparked_start launching_isLoop control _ _
  | relaunch control _ _ =>
      exact accounted.unparked_start relaunching_isLoop control _ state.formed
  | failOver control _ _ =>
      exact accounted.unparked_start failingOver_isLoop control _ state.formed
  | stray _ _ _ _ => exact unparked
  | reap _ _ _ => exact unparked
  | returned waiting found ended owner handled =>
      refine unparked_handled handled (accounted.room found ended waiting) fun code all => ?_
      have failed := sshFailed_of_code ended code
      by_contra few
      have fewer : state.procs.length < state.numSshFailsToInc := Nat.lt_of_not_le few
      have parked : state.sshFailProcs.length + 1 = state.procs.length := all
      have last : state.lastUnparked = true := by
        simp [lastUnparked, waiting, parked, fewer]
      have fine := allowed.2 last
      simp [found, failed] at fine
  | child _ _ => exact unparked
  | signal _ _ => exact unparked
  | _ => exact unparked_of_control nofun

/-- Some process is unparked at every `wait` of a run under the guard. -/
theorem unparked_invariant : (syncMachine capacity).Invariant lastSucceeds Unparked where
  initial := by
    rintro state ⟨tokenize, argMax, envpSize, config, rfl⟩
    exact unparked_of_control nofun
  preserved _ _ _ reachable unparked allowed taken :=
    unparked.of_move (accounted_invariant.of_reachable reachable) allowed (moves_of_step taken)

theorem code_of_sshFailed (failed : child.sshFailed = true)
    (ended : child.phase = .zombie status) : wexitstatus status.encode = sshFail := by
  rw [Child.sshFailed] at failed
  rw [ended] at failed
  cases status with
  | exited exitCode => simpa using failed
  | signaled signo coreDumped => cases failed

/-- What happens when the last unparked process fails: all processes move on to the next
destination, unless one has finished in this round. -/
theorem failOver_of_last (accounted : state.Accounted) (waiting : state.control = .waiting)
    (found : state.children[index]? = some child) (ended : child.phase = .zombie status)
    (member : process ∈ state.procs) (all : state.sshFailProcs.length + 1 = state.procs.length)
    (handled : Handled (state.reap index child status) process sshFail next) :
    if state.procs.length < state.numSshFailsToInc then
      next.control = .waiting ∧ next.procs ≠ [] ∧ next.outstanding = []
    else
      next.syncer.destinations = state.syncer.destinations.advance ∧
        next.procs = state.procs ∧ next.sshFailProcs = [] ∧
        next.control = .failingOver (state.procs.map SyncProcess.id) := by
  have after := (accounted.reap found ended).handled (accounted.room found ended waiting)
    member handled
  cases handled with
  | finished zero _ => cases zero
  | more zero _ => cases zero
  | tooBig _ same _ => cases same
  | fail _ reached => exact absurd rfl reached
  | retry _ same => simp [sshFail, protocolStream, partialXfr, timeoutSR, timeoutConn] at same
  | park _ short =>
      have fewer : state.procs.length < state.numSshFailsToInc := by
        have short : state.sshFailProcs.length + 1 < state.numSshFailsToInc := short
        omega
      rw [if_pos fewer]
      refine ⟨rfl, List.length_pos_iff.mp (show 0 < state.procs.length by omega), ?_⟩
      apply List.eq_nil_of_length_eq_zero
      have count := after.count
      rw [outstandingCount_eq, childless_of_waiting rfl] at count
      have parked : (state.sshFailProcs ++ [process.id]).length = state.procs.length := by
        simpa using all
      have bound : _ + (state.sshFailProcs ++ [process.id]).length ≤ state.procs.length :=
        count
      omega
  | failOver _ enough =>
      have many : ¬ state.procs.length < state.numSshFailsToInc := by
        have enough : state.numSshFailsToInc ≤ state.sshFailProcs.length + 1 := enough
        omega
      rw [if_neg many]
      exact ⟨rfl, rfl, rfl, rfl⟩

/-- While the last unparked process does not fail, `wait` always has a child to wait
for, so the round does not end for want of one; and a process that fails when all
others are parked moves the destination on and has all processes relaunched. The
first step that breaks the condition leaves processes without any child. -/
theorem failover_of_reachable (reachable : (syncMachine capacity).Reachable lastSucceeds state)
    (waiting : state.control = .waiting) :
    state.procs ≠ [] ∧ state.outstanding ≠ [] ∧ state.step capacity .noChildren = none ∧
    (∀ index logOpens child next, state.children[index]? = some child →
      child.sshFailed = true → state.sshFailProcs.length + 1 = state.procs.length →
      state.step capacity (.wait index logOpens) = some next →
      if state.procs.length < state.numSshFailsToInc then
        next.control = .waiting ∧ next.procs ≠ [] ∧ next.outstanding = []
      else
        next.syncer.destinations = state.syncer.destinations.advance ∧
          next.procs = state.procs ∧ next.sshFailProcs = [] ∧
          next.control = .failingOver (state.procs.map SyncProcess.id)) := by
  have accounted := accounted_invariant.of_reachable reachable
  have booked := (booked_invariant fun _ _ allowed => allowed.1).of_reachable reachable
  have few := unparked_invariant.of_reachable reachable waiting
  have linked := booked.linked (by rw [waiting]; rfl)
  have outstanding : state.outstanding ≠ [] := by
    rw [childless_of_waiting waiting] at linked
    exact linked.outstanding_ne_nil accounted.distinct few
  refine ⟨?_, outstanding, ?_, ?_⟩
  · exact List.length_pos_iff.mp (by omega)
  · simp [step, outstanding]
  · intro index logOpens child next found failed all taken
    obtain ⟨process, member, status, _, ended, handled⟩ :=
      handled_of_wait linked accounted waiting found taken
    rw [code_of_sshFailed failed ended] at handled
    exact failOver_of_last accounted waiting found ended member all handled

/-- Of two processes one is parked while the other runs. -/
theorem failover_of_parked :
    ∃ state : State, state.control = .waiting ∧ state.sshFailProcs = [0] ∧
      state.outstanding ≠ [] ∧ state.step 4 .noChildren = none := by
  have executed : ((syncMachine 4).run lastSucceeds (rsyncDaemon 2 "a:b, c:d".toList)
      parkedRun).any (fun state =>
        decide (state.control = .waiting ∧ state.sshFailProcs = [0])) = true := by
    decide +kernel
  obtain ⟨state, reachable, ended⟩ := Machine.exists_of_run (rsyncDaemon_initial 2 _) executed
  obtain ⟨waiting, parked⟩ := of_decide_eq_true ended
  obtain ⟨_, outstanding, running, _⟩ := failover_of_reachable reachable waiting
  exact ⟨state, waiting, parked, outstanding, running⟩

/-- One of two processes finishes, then the other cannot connect. -/
def stallRun : List Choice :=
  let files := [plainFile "/s/./a".toList 1, plainFile "/s/./b".toList 2]
  ([.sync files files, .fork 11, .fork 12] : List Choice) ++ childExits 0 0 ++
    childExits 1 sshFail ++ ([.wait 0 true, .wait 1 true] : List Choice)

/-- `wait` finds no child although a process is left, and the round fails without
trying the second destination. -/
theorem stalled_of_stallRun :
    ∃ state, (syncMachine 4).Reachable freshPids state ∧ state.control = .waiting ∧
      state.procs.map SyncProcess.id = [1] ∧ state.outstanding = [] ∧
      state.syncer.destinations.current = 0 ∧ state.syncer.destinations.names.length = 2 ∧
      (state.step 4 .noChildren).map State.control = some (.returned .syncFailed) := by
  have executed : ((syncMachine 4).run freshPids (rsyncDaemon 2 "a:b,c:d".toList)
      stallRun).any (fun state => decide (state.control = .waiting ∧
        state.procs.map SyncProcess.id = [1] ∧ state.outstanding = [] ∧
        state.syncer.destinations.current = 0 ∧ state.syncer.destinations.names.length = 2 ∧
        (state.step 4 .noChildren).map State.control = some (.returned .syncFailed))) = true := by
    decide +kernel
  obtain ⟨state, reachable, ended⟩ := Machine.exists_of_run (rsyncDaemon_initial 2 _) executed
  exact ⟨state, reachable, of_decide_eq_true ended⟩

end State

end CephGeoRep
