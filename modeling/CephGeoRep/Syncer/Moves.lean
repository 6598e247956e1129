import CephGeoRep.Syncer.Consume
import CephGeoRep.Syncer.Sync

/-!
# What a step can do

`Move` lists the transitions of the joint system with the conditions under which
each is taken; `moves_of_step` is its only contact with the step function.
Invariants are proved by cases on `Move`.
-/

namespace CephGeoRep.State

/-- What the body of the wait loop does with the process it found, once the child
has been reaped. -/
inductive Handled (state : State) (process : SyncProcess) (exitCode : Nat) : State → Prop where
  /-- Exit code 0 and nothing left for the process. -/
  | finished (zero : exitCode = 0) (done : process.done state.queue = true) :
      Handled state process exitCode
        (((state.retire process).eraseProc process.id).continueWith .relaunching
          state.sshFailProcs)
  /-- Exit code 0 and files left. -/
  | more (zero : exitCode = 0) (left : process.done state.queue = false) :
      Handled state process exitCode
        (((state.retire process).consume process.reset).1.continueWith .relaunching
          (process.id :: state.sshFailProcs))
  /-- `execvp` failed with E2BIG. -/
  | tooBig (nonzero : exitCode ≠ 0) (code : exitCode = checkShmem)
      (errno : state.execError process = some e2big) :
      Handled state process exitCode
        { state with
          control := .killing
            ((state.procs.filter fun other =>
              other.pid ≠ 0 && other.pid ≠ process.pid).map SyncProcess.pid) }
  /-- A failure the round does not survive. -/
  | fail (nonzero : exitCode ≠ 0) (reached : exitCode ≠ sshFail) :
      Handled state process exitCode state.failRound
  /-- "Trying batch again." -/
  | retry (nonzero : exitCode ≠ 0)
      (code : exitCode ∈ [protocolStream, partialXfr, timeoutSR, timeoutConn]) :
      Handled state process exitCode { state with control := .relaunching [process.id] }
  /-- The process waits for the others. -/
  | park (code : exitCode = sshFail)
      (few : state.sshFailProcs.length + 1 < state.numSshFailsToInc) :
      Handled state process exitCode
        { state with
          sshFailProcs := state.sshFailProcs ++ [process.id], control := .waiting }
  /-- Enough processes are parked. -/
  | failOver (code : exitCode = sshFail)
      (enough : state.numSshFailsToInc ≤ state.sshFailProcs.length + 1) :
      Handled state process exitCode state.tryNextDestination

theorem handled_execFailed {state : State} {process : SyncProcess} {exitCode errno : Nat}
    (nonzero : exitCode ≠ 0) (code : exitCode = checkShmem)
    (error : state.execError process = some errno) :
    Handled state process exitCode (state.execFailed process errno) := by
  rw [execFailed]
  split
  · next big => exact .tooBig nonzero code (big ▸ error)
  · exact .fail nonzero (by rw [code]; decide)

theorem handled_syncError {state : State} {process : SyncProcess} {exitCode : Nat}
    (nonzero : exitCode ≠ 0) (message : CString) :
    Handled state process exitCode (state.syncError process exitCode message) := by
  unfold syncError
  simp only
  split
  · next missing => exact .fail nonzero (by rw [missing.1]; decide)
  · split
    · next code =>
      split
      · exact .retry nonzero code
      · exact .fail nonzero fun same => absurd (same ▸ code) (by decide)
    · split
      · next code =>
        unfold State.park
        simp only [List.length_append, List.length_singleton]
        split
        · next enough => exact .failOver code enough
        · next few => exact .park code (by omega)
      · next reached => exact .fail nonzero reached

/-- The body of the wait loop does one of the things listed. -/
theorem handled_handleReturned (state : State) (process : SyncProcess) (status : WaitStatus)
    (logOpens : Bool) :
    Handled state process (wexitstatus status.encode)
      (state.handleReturned process status logOpens) := by
  unfold handleReturned
  simp only
  split
  · next zero =>
    unfold succeed
    split
    · next done => exact .finished zero done
    · next left => exact .more zero (by simpa using left)
  · next nonzero =>
    split
    · next errno error =>
      split
      · next code => exact handled_execFailed nonzero code error
      · exact handled_syncError nonzero _
    · exact handled_syncError nonzero _

/-- The transitions of the joint system. -/
inductive Move (capacity : Nat) (state : State) : Choice → State → Prop where
  | sync {queue sorted} (idle : state.control = .idle) (perm : sorted.Perm queue)
      (ordered : sorted.Pairwise fun first second => first.size ≤ second.size) :
      Move capacity state (.sync queue sorted)
        (launchProcs { state with queue := sorted, snapshot := true })
  | launch {id todo process pid} (control : state.control = .launching (id :: todo))
      (found : state.proc? id = some process) (forkable : state.forkable pid = true) :
      Move capacity state (.fork pid)
        (((state.consume process).1.syncBatch (state.consume process).2 pid).continueWith
          .launching todo)
  | relaunch {id todo process pid} (control : state.control = .relaunching (id :: todo))
      (found : state.proc? id = some process) (forkable : state.forkable pid = true) :
      Move capacity state (.fork pid)
        ((state.syncBatch process pid).continueWith .relaunching todo)
  | failOver {id todo process pid} (control : state.control = .failingOver (id :: todo))
      (found : state.proc? id = some process) (forkable : state.forkable pid = true) :
      Move capacity state (.fork pid)
        ((state.syncBatch (process.changeDestination state.destination) pid).continueWith
          .failingOver todo)
  /-- The object behind a pointer is gone. -/
  | dangling {id todo pid}
      (control : state.control = .launching (id :: todo) ∨
        state.control = .relaunching (id :: todo) ∨ state.control = .failingOver (id :: todo))
      (missing : state.proc? id = none) :
      Move capacity state (.fork pid) { state with control := .undefined }
  | forkFails {id todo}
      (looping : state.control = .launching (id :: todo) ∨
        state.control = .relaunching (id :: todo) ∨ state.control = .failingOver (id :: todo)) :
      Move capacity state .forkFails state.exitFailure
  /-- `wait` returned a child whose pid no process holds. -/
  | stray {index child status logOpens} (waiting : state.control = .waiting)
      (found : state.children[index]? = some child) (ended : child.phase = .zombie status)
      (unknown : ∀ process ∈ state.procs, process.pid ≠ child.pid) :
      Move capacity state (.wait index logOpens) (state.reap index child status)
  | returned {index child status logOpens process next} (waiting : state.control = .waiting)
      (found : state.children[index]? = some child) (ended : child.phase = .zombie status)
      (owner : (state.procs.find? fun process => process.pid == child.pid) = some process)
      (handled : Handled (state.reap index child status) process
        (wexitstatus status.encode) next) :
      Move capacity state (.wait index logOpens) next
  | reap {index child status logOpens} (reaping : state.control = .reaping)
      (found : state.children[index]? = some child) (ended : child.phase = .zombie status) :
      Move capacity state (.wait index logOpens) (state.reap index child status)
  | noneLeft (waiting : state.control = .waiting) (none : state.outstanding = []) :
      Move capacity state .noChildren state.failRound
  | allReaped (reaping : state.control = .reaping) (none : state.outstanding = []) :
      Move capacity state .noChildren
        { state with procs := [], control := .returned .incHeadroom }
  | kill {pid todo} (killing : state.control = .killing (pid :: todo)) :
      Move capacity state .kill
        { state with
          children := state.children.map (sendSigint pid), control := .killing todo }
  | killed (killing : state.control = .killing []) :
      Move capacity state .kill { state with control := .reaping }
  | success (returned : state.control = .returned .syncSuccess) :
      Move capacity state .afterRound { state with control := .synced }
  | newRound (returned : state.control = .returned .incHeadroom)
      (room : memLimHeadroom * 2 < state.syncer.maxMemUsage) :
      Move capacity state .afterRound
        (launchProcs { state with
          syncer := { state.syncer with
            maxMemUsage := state.syncer.maxMemUsage - memLimHeadroom } })
  | failure {result} (returned : state.control = .returned result)
      (unsuccessful : result ≠ .syncSuccess) :
      Move capacity state .afterRound state.exitFailure
  | deleted (synced : state.control = .synced) :
      Move capacity state (.deleteSnap true)
        { state with snapshot := false, control := .idle }
  | notDeleted (synced : state.control = .synced) :
      Move capacity state (.deleteSnap false) { state with control := .exited }
  | child {index child choice next} (found : state.children[index]? = some child)
      (taken : child.step capacity choice = some next) :
      Move capacity state (.child index choice)
        { state with
          children := state.children.set index next
          snapshot := state.snapshot && decide (choice ≠ .handle true) }
  | signal {index child signal} (found : state.children[index]? = some child)
      (live : child.live = true) :
      Move capacity state (.signal index signal)
        { state with
          children :=
            state.children.set index { child with pending := signal :: child.pending } }

variable {capacity : Nat} {state next : State}

theorem move_of_forkStep {pid : Nat} (forkable : state.forkable pid = true)
    (taken : state.forkStep pid = some next) : Move capacity state (.fork pid) next := by
  rw [forkStep] at taken
  split at taken
  · next id todo control =>
    split at taken
    · next process found =>
      cases taken
      exact .launch control found forkable
    · next missing =>
      cases taken
      exact .dangling (.inl control) missing
  · next id todo control =>
    split at taken
    · next process found =>
      cases taken
      exact .relaunch control found forkable
    · next missing =>
      cases taken
      exact .dangling (.inr (.inl control)) missing
  · next id todo control =>
    split at taken
    · next process found =>
      cases taken
      exact .failOver control found forkable
    · next missing =>
      cases taken
      exact .dangling (.inr (.inr control)) missing
  · cases taken

theorem move_of_waitStep {index : Nat} {logOpens : Bool}
    (taken : state.waitStep index logOpens = some next) :
    Move capacity state (.wait index logOpens) next := by
  rw [waitStep] at taken
  split at taken
  · next child found =>
    split at taken
    · next status ended =>
      simp only at taken
      split at taken
      · next waiting =>
        split at taken
        · next process owner =>
          cases taken
          exact .returned waiting found ended owner (handled_handleReturned _ _ _ _)
        · next unknown =>
          cases taken
          refine .stray waiting found ended fun process member => ?_
          have differs := List.find?_eq_none.mp unknown process member
          simpa using differs
      · next reaping =>
        cases taken
        exact .reap reaping found ended
      · cases taken
    · cases taken
  · cases taken

theorem move_of_afterRound {result : LaunchProcsRet} (returned : state.control = .returned result) :
    Move capacity state .afterRound (state.afterRound result) := by
  unfold afterRound
  split
  · exact .success returned
  · exact .failure returned (by simp)
  · split
    · next room => exact .newRound returned room
    · exact .failure returned (by simp)

/-- Every step is a move. -/
theorem moves_of_step {choice : Choice} (taken : state.step capacity choice = some next) :
    Move capacity state choice next := by
  cases choice with
  | sync queue sorted =>
      simp only [step, Option.ite_none_right_eq_some, Option.some.injEq] at taken
      obtain ⟨⟨idle, perm, ordered⟩, rfl⟩ := taken
      exact .sync idle perm ordered
  | fork pid =>
      simp only [step, Option.ite_none_right_eq_some] at taken
      exact move_of_forkStep taken.1 taken.2
  | forkFails =>
      simp only [step] at taken
      split at taken
      · next control =>
        cases taken
        exact .forkFails (.inl control)
      · next control =>
        cases taken
        exact .forkFails (.inr (.inl control))
      · next control =>
        cases taken
        exact .forkFails (.inr (.inr control))
      · cases taken
  | wait index logOpens => exact move_of_waitStep taken
  | noChildren =>
      simp only [step, Option.ite_none_right_eq_some, List.isEmpty_iff] at taken
      obtain ⟨none, taken⟩ := taken
      split at taken
      · next waiting =>
        cases taken
        exact .noneLeft waiting none
      · next reaping =>
        cases taken
        exact .allReaped reaping none
      · cases taken
  | kill =>
      simp only [step] at taken
      split at taken
      · next pid todo killing =>
        cases taken
        exact .kill killing
      · next killing =>
        cases taken
        exact .killed killing
      · cases taken
  | afterRound =>
      simp only [step] at taken
      split at taken
      · next result returned =>
        cases taken
        exact move_of_afterRound returned
      · cases taken
  | deleteSnap removed =>
      simp only [step, Option.ite_none_right_eq_some] at taken
      obtain ⟨synced, taken⟩ := taken
      cases removed <;> cases taken
      · exact .notDeleted synced
      · exact .deleted synced
  | child index choice =>
      simp only [step] at taken
      split at taken
      · next child found =>
        split at taken
        · next next moved =>
          cases taken
          exact .child found moved
        · cases taken
      · cases taken
  | signal index signal =>
      simp only [step] at taken
      split at taken
      · next child found =>
        split at taken
        · next live =>
          cases taken
          exact .signal found live
        · cases taken
      · cases taken

end CephGeoRep.State
