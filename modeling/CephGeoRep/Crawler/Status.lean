import CephGeoRep.Crawler.ArgMax

/-!
# The status file

`/run/cephgeorep/status` holds one number for an exporter. It is written at the start of
a program, where a sync program has succeeded or a destination is given up, in `l::exit`
and in the signal handler, which children inherit until they reset it. What it says in
between is an invariant of whole runs: a call of `Syncer::sync` that returns has ended
with a success, so neither a destination that was down nor a child in the handler shows
in an iteration that comes to an end. Children that an ended process leaves behind are not
followed.
-/

namespace CephGeoRep

open Semantics

/-! ## What is written -/

namespace Status

def ok : Nat := 0
def notRunning : Nat := 1
def hostDown : Nat := 2
def allHostsDown : Nat := 3
def exitFailed : Nat := 4

end Status

/-- What the program is told about the next call that may fail. -/
inductive Outcome where
  /-- Whether the snapshot can be removed. -/
  | removal (succeeds : Bool)
  /-- Whether the search ends with an exception, and not with `l::exit`. -/
  | search (throws : Bool)

/-- The number in the file, and what becomes of calls that end a process. -/
structure StatusFile where
  status : Nat
  removable : Bool
  throws : Bool

namespace State

/-- What the body of the wait loop writes: OK for the exit code 0 and HOST_DOWN where
the destination changes. -/
def statusOfWait (state next : State) (index status : Nat) : Nat :=
  match state.control, state.children[index]? with
  | .waiting, some child =>
    match child.phase, state.procs.find? fun process => process.pid == child.pid with
    | .zombie ended, some _ =>
      if wexitstatus ended.encode = 0 then Status.ok
      else
        match next.control with
        | .failingOver _ => Status.hostDown
        | _ => status
    | _, _ => status
  | _, _ => status

/-- The file after a step in `Syncer::sync`. -/
def statusOf (state next : State) (status : Nat) : Choice → Nat
  | .wait index _ => state.statusOfWait next index status
  | .child _ (.handle true) => Status.notRunning
  | .forkFails => Status.exitFailed
  | .afterRound => if next.control = .exited then Status.exitFailed else status
  | .sync .. | .fork _ | .noChildren | .kill | .deleteSnap _ | .child .. | .signal .. => status

end State

namespace StatusFile

/-- `sig_hdlr`: the status is set behind `delete_snap`. -/
def handle (file : StatusFile) : StatusFile :=
  if file.removable then { file with status := Status.notRunning } else file

/-- `l::exit(EXIT_FAILURE)`: the status is set before the cleanup. -/
def exit (file : StatusFile) : StatusFile := { file with status := Status.exitFailed }

end StatusFile

/-- Follows the file; the events are what the environment decides. -/
def statusFile : Observer Daemon PollChoice StatusFile Outcome where
  start _ := ⟨Status.ok, true, false⟩
  note daemon choice next file :=
    match choice with
    | .start .. => { file with status := Status.ok }
    | .createFails => file.exit
    | .search _ => if next.control = .stopped then file.exit else file
    | .searchFails => if file.throws then file else file.exit
    | .syncer call => { file with status := daemon.round.statusOf next.round file.status call }
    | .signal => file.handle
    | .assign | .check _ | .create _ | .launch _ | .deleteSnap _ | .flush _ | .rest | .close
    | .kill => file
  see _ outcome file :=
    match outcome with
    | .removal succeeds => some { file with removable := succeeds }
    | .search throws => some { file with throws := throws }

/-! ## A round ends with a success -/

/-- `sync` has found all files sent. -/
def Control.succeeded : Control → Bool
  | .idle | .synced | .returned .syncSuccess => true
  | _ => false

namespace State

variable {capacity : Nat} {state next : State} {choice : Choice} {status : Nat}

theorem atRest_of_succeeded {control : Control} (succeeded : control.succeeded = true) :
    control.atRest = true := by
  cases control with
  | returned result => cases result <;> simp_all [Control.succeeded, Control.atRest]
  | _ => simp_all [Control.succeeded, Control.atRest]

/-- A loop that starts a process leads to no success. -/
theorem not_succeeded_of_fork {pid : Nat} (taken : state.step capacity (.fork pid) = some next) :
    next.control.succeeded = false := by
  rcases launch_of_fork taken with rfl | ⟨loop, id, todo, old, process, formed, isLoop, _, member,
    _, _, rfl⟩
  · rfl
  · rw [Bool.eq_false_iff]
    intro succeeded
    have none := rest_continueWith isLoop (atRest_of_succeeded succeeded)
    have same := length_procs_setProc state (process.started pid state.children.length)
    rw [show (state.setProc (process.started pid state.children.length)).procs = [] from none,
      List.length_nil, eq_comm, List.length_eq_zero_iff] at same
    rw [same] at member
    cases member

/-- `sync` comes to no end while a child is in the handler. -/
theorem not_succeeded_of_handle (accounted : state.Accounted) {index : Nat} {child next : Child}
    {removed : Bool} (found : state.children[index]? = some child)
    (taken : child.step capacity (.handle removed) = some next) :
    state.control.succeeded = false := by
  simp only [Child.step, Option.ite_none_right_eq_some] at taken
  rw [Bool.eq_false_iff]
  intro succeeded
  have none := accounted.outstanding_eq_nil (atRest_of_succeeded succeeded)
  have held : child.outstanding = true := by simp [Child.outstanding, taken.1]
  have member : child ∈ state.outstanding :=
    List.mem_filter.mpr ⟨List.mem_of_getElem? found, held⟩
  rw [none] at member
  cases member

/-- The body of the wait loop only ends `sync` behind the exit code 0. -/
theorem zero_of_handled {process : SyncProcess} {exitCode : Nat}
    (handled : Handled state process exitCode next) (succeeded : next.control.succeeded = true) :
    exitCode = 0 := by
  cases handled with
  | finished zero => exact zero
  | more zero => exact zero
  | _ => cases succeeded

/-- Where a step leads to a success, the file says OK if it did so in all successes. -/
theorem ok_of_step (accounted : state.Accounted) (taken : state.step capacity choice = some next)
    (before : state.control.succeeded = true → status = Status.ok)
    (succeeded : next.control.succeeded = true) :
    state.statusOf next status choice = Status.ok := by
  have move := moves_of_step taken
  cases move with
  | launch | relaunch | failOver | dangling =>
      rw [not_succeeded_of_fork taken] at succeeded
      cases succeeded
  | returned waiting found ended owner handled =>
      have zero := zero_of_handled handled succeeded
      simp only [statusOf, statusOfWait, waiting, found, ended, owner, if_pos zero]
  | success returned => exact before (by rw [returned]; rfl)
  | deleted synced => exact before (by rw [synced]; rfl)
  | @child _ _ call _ found stepped =>
      cases call with
      | handle removed =>
          have open_ := not_succeeded_of_handle accounted found stepped
          exact absurd succeeded (by simp [open_])
      | _ => exact before succeeded
  | signal => exact before succeeded
  | stray waiting => simp [State.reap, waiting, Control.succeeded] at succeeded
  | reap reaping => simp [State.reap, reaping, Control.succeeded] at succeeded
  | _ => cases succeeded

/-- The three numbers that a process writes while it goes on. -/
def Written (status : Nat) : Prop := status ∈ [Status.ok, Status.notRunning, Status.hostDown]

theorem written_statusOfWait (written : Written status) (state next : State) (index : Nat) :
    Written (state.statusOfWait next index status) := by
  unfold statusOfWait
  split
  · split
    · split
      · simp [Written]
      · split
        · simp [Written]
        · exact written
    · exact written
  · exact written

/-- `sync` writes another number only where it ends the process. -/
theorem written_statusOf (written : Written status)
    (taken : state.step capacity choice = some next) :
    Written (state.statusOf next status choice) ∨
      state.statusOf next status choice = Status.exitFailed ∧ next.control = .exited := by
  cases choice with
  | wait index logOpens => exact .inl (written_statusOfWait written state next index)
  | forkFails =>
      cases moves_of_step taken with
      | forkFails => exact .inr ⟨rfl, rfl⟩
  | afterRound =>
      rw [statusOf]
      split
      · next exited => exact .inr ⟨rfl, exited⟩
      · exact .inl written
  | child index call =>
      cases call with
      | handle removed =>
          cases removed with
          | true => exact .inl (by simp [statusOf, Written])
          | false => exact .inl written
      | _ => exact .inl written
  | _ => exact .inl written

/-- `sync` ends the process with `l::exit` only. -/
theorem exitFailed_of_step (taken : state.step capacity choice = some next)
    (goesOn : state.control ≠ .synced ∧ state.control ≠ .exited)
    (exited : next.control = .exited) :
    state.statusOf next status choice = Status.exitFailed := by
  have move := moves_of_step taken
  cases move with
  | launch | relaunch | failOver | dangling => exact absurd exited (goesOn_of_fork taken)
  | forkFails => rfl
  | failure => rw [statusOf, if_pos exited]
  | notDeleted synced => exact absurd synced goesOn.1
  | returned _ _ _ _ handled =>
      cases handled with
      | finished | more =>
          refine absurd exited ?_
          apply holds_continueWith fun control => control ≠ .exited
          · simp
          · simp
          · simp
      | _ => cases exited
  | stray waiting => simp [State.reap, waiting] at exited
  | reap reaping => simp [State.reap, reaping] at exited
  | child | signal => exact absurd exited goesOn.2
  | _ => cases exited

end State

namespace Daemon

variable {tokenize : CString → CString → List CString} {capacity : Nat} {daemon next : Daemon}
  {choice : PollChoice} {file : StatusFile}

/-- While a process goes on the file says OK, but for a call of `Syncer::sync` that has
not come to its end. -/
structure Reports (daemon : Daemon) (file : StatusFile) : Prop where
  written : daemon.control ≠ .stopped → State.Written file.status
  stopped : State.Written file.status ∨ file.status = Status.exitFailed
  outside : daemon.control ≠ .stopped → daemon.control ≠ .syncing → file.status = Status.ok
  inside : daemon.control = .syncing → daemon.round.control.succeeded = true →
    file.status = Status.ok
  goesOn : daemon.control = .syncing →
    daemon.round.control ≠ .synced ∧ daemon.round.control ≠ .exited

/-- The daemon goes on outside of `Syncer::sync`, or the process ends without a call that
writes the file. -/
theorem Reports.keep (reports : daemon.Reports file) (running : daemon.control ≠ .stopped)
    (outside : daemon.control ≠ .syncing) (leads : next.control ≠ .syncing) :
    next.Reports file where
  written _ := reports.written running
  stopped := reports.stopped
  outside _ _ := reports.outside running outside
  inside here := absurd here leads
  goesOn here := absurd here leads

/-- The process ends. -/
theorem reports_of_stopped (stopped : next.control = .stopped)
    (status : State.Written file.status ∨ file.status = Status.exitFailed) : next.Reports file where
  written running := absurd stopped running
  stopped := status
  outside running := absurd stopped running
  inside here := by simp [stopped] at here
  goesOn here := by simp [stopped] at here

/-- Every step of the daemon keeps what the file says. -/
theorem Reports.of_move (reports : daemon.Reports file) (accounted : daemon.round.Accounted)
    (move : Move tokenize capacity daemon choice next) :
    next.Reports (statusFile.note daemon choice next file) := by
  cases move with
  | start _ begun =>
      obtain ⟨_, _, _, rfl⟩ := eq_of_begin begun
      have elsewhere : ∀ seed : Bool,
          (if seed then PollControl.update ⟨1, 0⟩ .loop else .checking) ≠ .syncing := by
        intro seed
        cases seed <;> simp
      have written : State.Written Status.ok := by simp [State.Written]
      exact ⟨fun _ => written, .inl written, fun _ _ => rfl,
        fun here => absurd here (elsewhere _), fun here => absurd here (elsewhere _)⟩
  | launch here taken =>
      have ok := reports.outside (by simp [here]) (by simp [here])
      have written : State.Written file.status := by simp [ok, State.Written]
      refine ⟨fun _ => written, .inl written, fun _ other => absurd rfl other, fun _ _ => ok, ?_⟩
      intro _
      cases State.moves_of_step taken with
      | sync => exact ⟨by simp [State.launchProcs, State.startRound],
          by simp [State.launchProcs, State.startRound]⟩
  | sync here taken goesOn =>
      have before := reports.written (by simp [here])
      have written := (State.written_statusOf before taken).resolve_right
        fun exited => goesOn.2 exited.2
      exact ⟨fun _ => written, .inl written, fun _ other => absurd here other,
        fun _ => State.ok_of_step accounted taken (reports.inside here), fun _ => goesOn⟩
  | synced here taken ended =>
      have ok := State.ok_of_step accounted taken (reports.inside here) (by rw [ended]; rfl)
      have before := reports.written (by simp [here])
      have written := (State.written_statusOf before taken).resolve_right
        fun exited => by simp [ended] at exited
      exact ⟨fun _ => written, .inl written, fun _ _ => ok, fun other => by simp at other,
        fun other => by simp at other⟩
  | syncFails here taken ended =>
      apply reports_of_stopped rfl
      exact (State.written_statusOf (reports.written (by simp [here])) taken).imp_right (·.1)
  | @check base here =>
      apply reports.keep (by simp [here]) (by simp [here])
      rw [check]
      split
      · next change _ _ => cases change <;> simp
      · simp [die]
  | rest here =>
      apply reports.keep (by simp [here]) (by simp [here])
      rw [rest]
      split
      · split <;> simp
      · simp
  | @search schedule result here =>
      have control := daemon.afterSearch_control result.1
      have running : (daemon.afterSearch result.1).control ≠ .stopped := by
        rcases control with control | control <;> simp [control]
      show (daemon.afterSearch result.1).Reports (if _ then file.exit else file)
      rw [if_neg running]
      apply reports.keep (by simp [here]) (by simp [here])
      rcases control with control | control <;> simp [control]
  | @assignNsec newRctime after here =>
      apply reports.keep (by simp [here]) (by simp [here])
      cases after <;> simp [AfterUpdate.control]
  | deleteSnap here =>
      apply reports.keep (by simp [here]) (by simp [here])
      show (if daemon.flags.dryRun then PollControl.resting
        else .update daemon.newRctime .flush) ≠ .syncing
      split <;> simp
  | assignSec here | create here | flush here =>
      exact reports.keep (by simp [here]) (by simp [here]) (by simp)
  | createFails here => exact reports_of_stopped rfl (.inr rfl)
  | noWorkers here => exact reports_of_stopped rfl (.inr rfl)
  | searchFails here =>
      apply reports_of_stopped rfl
      show State.Written (if file.throws then file else file.exit).status ∨
        (if file.throws then file else file.exit).status = Status.exitFailed
      split
      · exact reports.stopped
      · exact .inr rfl
  | signal running =>
      apply reports_of_stopped rfl
      show State.Written file.handle.status ∨ file.handle.status = _
      rw [StatusFile.handle]
      split
      · exact .inl (by simp [State.Written])
      · exact reports.stopped
  | close | keepSnap | kill => exact reports_of_stopped rfl reports.stopped

theorem reports_invariant : (statusFile.watch (pollMachine tokenize capacity)).Invariant
    Machine.unguarded fun both => both.state.Reports both.record := by
  apply Observer.invariant
  · rintro _ ⟨disk, rfl⟩
    exact reports_of_stopped rfl (.inl (by simp [statusFile, State.Written]))
  · rintro ⟨daemon, file⟩ choice next reachable reports - taken
    have plain : (pollMachine tokenize capacity).Reachable
        (inRounds Machine.unguarded) daemon :=
      Observer.reachable reachable fun _ choice _ => by cases choice <;> trivial
    have round := (inStep_invariant.of_reachable plain).reachable
    exact reports.of_move (State.accounted_invariant.of_reachable round) (moves_of_step taken)
  · rintro ⟨daemon, file⟩ outcome seen - reports - noted
    cases outcome with
    | removal succeeds =>
        rw [← Option.some.inj noted]
        exact ⟨reports.written, reports.stopped, reports.outside, reports.inside, reports.goesOn⟩
    | search throws =>
        rw [← Option.some.inj noted]
        exact ⟨reports.written, reports.stopped, reports.outside, reports.inside, reports.goesOn⟩

/-- In every run, failovers and children in the signal handler included: while a process
runs the file says OK, NOT_RUNNING or HOST_DOWN, and it says OK at every point outside of
`Syncer::sync`, so at the regular end too. A process that ends in `Syncer::sync` through
`l::exit` leaves EXIT_FAILED, and ALL_HOSTS_DOWN is never written. -/
theorem status_of_reachable {both : Observed Daemon StatusFile}
    (reachable : (statusFile.watch (pollMachine tokenize capacity)).Reachable
      Machine.unguarded both) :
    (both.state.control ≠ .stopped →
      both.record.status ∈ [Status.ok, Status.notRunning, Status.hostDown]) ∧
    (both.state.control ≠ .stopped → both.state.control ≠ .syncing →
      both.record.status = Status.ok) ∧
    (∀ call next, both.state.step tokenize capacity (.syncer call) = some next →
      next.control = .stopped →
      (statusFile.note both.state (.syncer call) next both.record).status = Status.exitFailed) ∧
    both.record.status ≠ Status.allHostsDown := by
  have reports := reports_invariant.of_reachable reachable
  refine ⟨reports.written, reports.outside, fun call next taken stopped => ?_, ?_⟩
  · cases moves_of_step taken with
    | sync here => simp [here] at stopped
    | synced here => simp at stopped
    | syncFails here stepped ended =>
        exact State.exitFailed_of_step stepped (reports.goesOn here) ended
  · intro all
    rcases reports.stopped with written | failed
    · rw [all] at written
      simp [State.Written, Status.ok, Status.notRunning, Status.hostDown, Status.allHostsDown]
        at written
    · rw [all] at failed
      cases failed

/-- Both processes fail over; the first to be sent to the second destination succeeds,
and so does the other one. -/
def recoveredRun : List (PollChoice ⊕ Outcome) :=
  (unreachableRun ++ (([.fork 13, .fork 14] : List Choice) ++ childExits 2 0 ++ childExits 3 0 ++
    ([.wait 2 true, .wait 3 true, .afterRound] : List Choice)).map PollChoice.syncer).map .inl

/-- HOST_DOWN is written on the way, and is gone before the snapshot is deleted. -/
theorem status_of_recoveredRun : ∃ first last : Observed Daemon StatusFile,
    first.record.status = Status.hostDown ∧ first.record.status ≠ Status.allHostsDown ∧
    last.state.control = .deleting ∧ last.record.status = Status.ok := by
  have start : (statusFile.watch (pollMachine plainTokens 4)).Initial
      ⟨.initial none, statusFile.start (.initial none)⟩ := ⟨initial_valid none, rfl⟩
  have failed : ((statusFile.watch (pollMachine plainTokens 4)).run Machine.unguarded
      ⟨.initial none, statusFile.start (.initial none)⟩ (unreachableRun.map .inl)).any
        (fun both => decide (both.record.status = Status.hostDown)) = true := by
    decide +kernel
  have recovered : ((statusFile.watch (pollMachine plainTokens 4)).run Machine.unguarded
      ⟨.initial none, statusFile.start (.initial none)⟩ recoveredRun).any
        (fun both => decide (both.state.control = .deleting)) = true := by
    decide +kernel
  obtain ⟨first, reachable, down⟩ := Machine.exists_of_run start failed
  obtain ⟨last, ended, deleting⟩ := Machine.exists_of_run start recovered
  have here := of_decide_eq_true deleting
  exact ⟨first, last, of_decide_eq_true down, (status_of_reachable reachable).2.2.2, here,
    (status_of_reachable ended).2.1 (by simp [here]) (by simp [here])⟩

end Daemon

end CephGeoRep
