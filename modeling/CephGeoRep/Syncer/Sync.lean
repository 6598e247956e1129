import CephGeoRep.Semantics.Machine
import CephGeoRep.Syncer.Child

/-!
# The parent and its children

One machine for `Syncer::sync`, `launch_procs` and `handle_returned_procs`
together with the children they fork. A parent step ends at the next system call
that lets children run or that observes them (`fork`, `kill`, `wait`), so every
interleaving of the two sides is a list of choices.

`sync` is called once for each changed snapshot; the choice `sync` stands for
the iteration of `poll_base` that creates the snapshot, searches it and calls
`Syncer::sync`, and `deleteSnap` for the end of that iteration.
-/

namespace CephGeoRep

open Semantics

/-- `LAUNCH_PROCS_RET_T`. -/
inductive LaunchProcsRet where
  | syncSuccess
  | syncFailed
  | incHeadroom
deriving DecidableEq

/-- Where the parent is. The lists are the processes (or pids) a loop still has
to visit. -/
inductive Control where
  /-- Outside `sync`. -/
  | idle
  /-- In the second loop of `launch_procs`. -/
  | launching (todo : List Nat)
  /-- At the `wait` of `handle_returned_procs`. -/
  | waiting
  /-- About to call `sync_batch` on processes whose batch is loaded. -/
  | relaunching (todo : List Nat)
  /-- In the loop behind "Trying next destination". -/
  | failingOver (todo : List Nat)
  /-- In the kill loop of the E2BIG branch. -/
  | killing (todo : List Nat)
  /-- At `while((exited_pid = wait(NULL)) != -1)`. -/
  | reaping
  | returned (result : LaunchProcsRet)
  /-- `sync` returned to `poll_base`. -/
  | synced
  /-- The process ended with a failure. -/
  | exited
  /-- A pointer to an erased process was followed. -/
  | undefined
deriving DecidableEq

/-- The joint state. `formed` and `retired` are bookkeeping of the current round:
the batches `consume` formed and those the exit-code-0 branch retired, each with
its process. -/
structure State where
  syncer : Syncer
  queue : List File
  procs : List SyncProcess
  sshFailProcs : List Nat
  numSshFailsToInc : Nat
  control : Control
  children : List Child
  snapshot : Bool
  formed : List (Nat × List Nat)
  retired : List (Nat × List Nat)

/-- Everything the parent does not decide. -/
inductive Choice where
  /-- The search found `queue`; `std::sort` turns it into `sorted`. -/
  | sync (queue sorted : List File)
  /-- `fork` returns `pid` in the parent. -/
  | fork (pid : Nat)
  /-- `fork` or `mmap` fails. -/
  | forkFails
  /-- `wait` returns the child at `index`; `logOpens` tells whether `log_errors`
  can open its log file, should it be called. -/
  | wait (index : Nat) (logOpens : Bool)
  /-- `wait` returns -1. -/
  | noChildren
  | kill
  /-- `sync` looks at the result of the round. -/
  | afterRound
  | deleteSnap (removed : Bool)
  | child (index : Nat) (choice : ChildChoice)
  /-- A signal is sent to a child by somebody else. -/
  | signal (index : Nat) (signal : Signal)

namespace State

/-- A daemon whose syncer has just been built. -/
def start (syncer : Syncer) : State where
  syncer := syncer
  queue := []
  procs := []
  sshFailProcs := []
  numSshFailsToInc := 0
  control := .idle
  children := []
  snapshot := false
  formed := []
  retired := []

/-- `*destination_`. -/
def destination (state : State) : CString := state.syncer.destinations.star

/-- The process object with a given `id_`. -/
def proc? (state : State) (id : Nat) : Option SyncProcess :=
  state.procs.find? fun process => process.id == id

/-- Write a process object back. -/
def setProc (state : State) (process : SyncProcess) : State :=
  { state with
    procs := state.procs.map fun other => if other.id = process.id then process else other }

/-- The children `wait` has not returned yet. -/
def outstanding (state : State) : List Child :=
  state.children.filter Child.outstanding

/-- The head of `while(!procs.empty())`. -/
def loopHead (state : State) : Control :=
  if state.procs.isEmpty then .returned .syncSuccess else .waiting

/-- `nproc` new processes, the first of which is about to be launched. Children
that `wait` has returned are forgotten. -/
def startRound (state : State) (nproc : Nat) (pos : 0 < nproc) : State :=
  { state with
    procs := (List.range nproc).map (SyncProcess.new state.syncer nproc pos)
    sshFailProcs := []
    numSshFailsToInc := nproc
    control := .launching (List.range nproc)
    children := state.outstanding
    formed := []
    retired := [] }

/-- `Syncer::launch_procs` up to its second loop. -/
def launchProcs (state : State) : State :=
  state.startRound (Syncer.launchCount state.syncer.nproc state.queue.length)
    (Syncer.launchCount_pos ..)

/-- The parent part of `sync_batch`: the child is the last one of the list. -/
def syncBatch (state : State) (process : SyncProcess) (pid : Nat) : State :=
  { state.setProc (process.started pid state.children.length) with
    children := state.children ++ [Child.fork process pid state.destination] }

/-- `consume` on a process, recorded as a formed batch. -/
def consume (state : State) (process : SyncProcess) : State × SyncProcess :=
  let process := process.consume state.queue state.destination
  ({ state.setProc process with formed := state.formed ++ [(process.id, process.batch)] },
    process)

/-- `l::exit(EXIT_FAILURE)`: the snapshot is removed and the process ends. -/
def exitFailure (state : State) : State :=
  { state with snapshot := false, control := .exited }

/-- Leave `handle_returned_procs` with `SYNC_FAILED`. -/
def failRound (state : State) : State :=
  { state with control := .returned .syncFailed }

end State

/-- `ends_with`. -/
def endsWith (str suffix : CString) : Bool := suffix.isSuffixOf str

/-- `str.find(pattern) != std::string::npos`. -/
def contains (str pattern : CString) : Bool := str.tails.any pattern.isPrefixOf

/-- The read loop of `log_errors`: each chunk of at most 4095 characters is used
as a C string. -/
def readPipe : Nat → CString → CString
  | 0, _ => []
  | rounds + 1, text =>
    if text.isEmpty then []
    else (text.take 4095).takeWhile (· ≠ '\x00') ++ readPipe rounds (text.drop 4095)

namespace State

/-- The child of the latest `sync_batch` of a process. -/
def childOf (state : State) (process : SyncProcess) : Option Child :=
  process.lastChild.bind fun index => state.children[index]?

/-- `exec_error_->errno_` when `exec_failed_` is set. -/
def execError (state : State) (process : SyncProcess) : Option Nat :=
  (state.childOf process).bind Child.execError

/-- `SyncProcess::log_errors`: the content of the pipe, unless the log file cannot
be opened. -/
def logErrors (state : State) (process : SyncProcess) (logOpens : Bool) : CString :=
  match state.childOf process with
  | some child => if logOpens then readPipe child.pipe.length child.pipe else []
  | none => []

/-- Go on with the next process of a loop, or back to the head of the `while`. -/
def continueWith (state : State) (loop : List Nat → Control) (todo : List Nat) : State :=
  { state with control := if todo.isEmpty then state.loopHead else loop todo }

/-- A batch leaves its process through the exit-code-0 branch. The parked processes
are about to be relaunched, so `ssh_fail_procs` is emptied here already. -/
def retire (state : State) (process : SyncProcess) : State :=
  { state with
    retired := state.retired ++ [(process.id, process.batch)]
    sshFailProcs := [] }

/-- `procs.erase`; the `id_` of a process identifies the object. -/
def eraseProc (state : State) (id : Nat) : State :=
  { state with procs := state.procs.eraseP fun other => other.id == id }

/-- The branch for exit code 0: the process is erased or forms its next batch, and
the parked processes are relaunched with it. -/
def succeed (state : State) (process : SyncProcess) : State :=
  if process.reset.done state.queue then
    ((state.retire process).eraseProc process.id).continueWith .relaunching state.sshFailProcs
  else
    ((state.retire process).consume process.reset).1.continueWith .relaunching
      (process.id :: state.sshFailProcs)

/-- The branch for a failed `execvp`. Only E2BIG restarts the round; every process
that was ever launched is a target of the kill loop, except the one that just
ended. -/
def execFailed (state : State) (process : SyncProcess) (errno : Nat) : State :=
  if errno = e2big then
    let others := state.procs.filter fun other => other.pid ≠ 0 && other.pid ≠ process.pid
    { state with control := .killing (others.map SyncProcess.pid) }
  else state.failRound

/-- "Trying next destination": the iterator moves before the processes do. -/
def tryNextDestination (state : State) : State :=
  { state with
    syncer := { state.syncer with destinations := state.syncer.destinations.advance }
    sshFailProcs := []
    control := .failingOver (state.procs.map SyncProcess.id) }

/-- `case SSH_FAIL`: the process is parked until another one succeeds or until as
many are parked as the round started with. -/
def park (state : State) (process : SyncProcess) : State :=
  let parked := state.sshFailProcs ++ [process.id]
  if state.numSshFailsToInc ≤ parked.length then state.tryNextDestination
  else { state with sshFailProcs := parked, control := .waiting }

/-- The branch for errors of the sync program. -/
def syncError (state : State) (process : SyncProcess) (exitCode : Nat) (message : CString) :
    State :=
  let rsync := endsWith state.syncer.execBin "rsync".toList
  if exitCode = protocolStream ∧ rsync ∧ contains message "command not found".toList then
    state.failRound
  else if exitCode ∈ [protocolStream, partialXfr, timeoutSR, timeoutConn] then
    if rsync then { state with control := .relaunching [process.id] } else state.failRound
  else if exitCode = sshFail then state.park process
  else state.failRound

/-- The body of the loop of `handle_returned_procs` behind `find_if`. -/
def handleReturned (state : State) (process : SyncProcess) (status : WaitStatus)
    (logOpens : Bool) : State :=
  let exitCode := wexitstatus status.encode
  if exitCode = 0 then state.succeed process
  else
    match state.execError process with
    | some errno =>
      if exitCode = checkShmem then state.execFailed process errno
      else state.syncError process exitCode (state.logErrors process logOpens)
    | none => state.syncError process exitCode (state.logErrors process logOpens)

/-- `fork` never returns 0 in the parent, nor the pid of a child that has not been
reaped. -/
def forkable (state : State) (pid : Nat) : Bool :=
  pid != 0 && state.outstanding.all fun child => child.pid != pid

/-- The next `fork` of the loop the parent is in. -/
def forkStep (state : State) (pid : Nat) : Option State :=
  match state.control with
  | .launching (id :: todo) =>
    match state.proc? id with
    | some process =>
      let loaded := state.consume process
      some ((loaded.1.syncBatch loaded.2 pid).continueWith .launching todo)
    | none => some { state with control := .undefined }
  | .relaunching (id :: todo) =>
    match state.proc? id with
    | some process => some ((state.syncBatch process pid).continueWith .relaunching todo)
    | none => some { state with control := .undefined }
  | .failingOver (id :: todo) =>
    match state.proc? id with
    | some process =>
      let process := process.changeDestination state.destination
      some ((state.syncBatch process pid).continueWith .failingOver todo)
    | none => some { state with control := .undefined }
  | _ => none

/-- The child at `index` has been waited for. -/
def reap (state : State) (index : Nat) (child : Child) (status : WaitStatus) : State :=
  { state with children := state.children.set index { child with phase := .reaped status } }

/-- `wait` returns the child at `index`. -/
def waitStep (state : State) (index : Nat) (logOpens : Bool) : Option State :=
  match state.children[index]? with
  | some child =>
    match child.phase with
    | .zombie status =>
      let reaped := state.reap index child status
      match state.control with
      | .waiting =>
        match state.procs.find? fun process => process.pid == child.pid with
        | some process => some (reaped.handleReturned process status logOpens)
        | none => some reaped
      | .reaping => some reaped
      | _ => none
    | _ => none
  | none => none

/-- `kill(pid, SIGINT)`, as the children see it. -/
def sendSigint (pid : Nat) (child : Child) : Child :=
  if child.live && child.pid == pid then
    { child with pending := .int :: child.pending }
  else child

/-- What `sync` does with the result of a round. -/
def afterRound (state : State) (result : LaunchProcsRet) : State :=
  match result with
  | .syncSuccess => { state with control := .synced }
  | .syncFailed => state.exitFailure
  | .incHeadroom =>
    if state.syncer.maxMemUsage > memLimHeadroom * 2 then
      launchProcs { state with
        syncer := { state.syncer with
          maxMemUsage := state.syncer.maxMemUsage - memLimHeadroom } }
    else state.exitFailure

/-- One step of the joint system; a pipe holds `capacity` characters. -/
def step (capacity : Nat) (state : State) : Choice → Option State
  | .sync queue sorted =>
    if state.control = .idle ∧ sorted.Perm queue ∧
        sorted.Pairwise fun first second => first.size ≤ second.size then
      some (launchProcs { state with queue := sorted, snapshot := true })
    else none
  | .fork pid => if state.forkable pid then state.forkStep pid else none
  | .forkFails =>
    match state.control with
    | .launching (_ :: _) | .relaunching (_ :: _) | .failingOver (_ :: _) =>
      some state.exitFailure
    | _ => none
  | .wait index logOpens => state.waitStep index logOpens
  | .noChildren =>
    if state.outstanding.isEmpty then
      match state.control with
      | .waiting => some state.failRound
      | .reaping => some { state with procs := [], control := .returned .incHeadroom }
      | _ => none
    else none
  | .kill =>
    match state.control with
    | .killing (pid :: todo) =>
      some { state with
        children := state.children.map (sendSigint pid), control := .killing todo }
    | .killing [] => some { state with control := .reaping }
    | _ => none
  | .afterRound =>
    match state.control with
    | .returned result => some (state.afterRound result)
    | _ => none
  | .deleteSnap removed =>
    if state.control = .synced then
      if removed then some { state with snapshot := false, control := .idle }
      else some { state with control := .exited }
    else none
  | .child index choice =>
    match state.children[index]? with
    | some child =>
      match child.step capacity choice with
      | some next =>
        some { state with
          children := state.children.set index next
          snapshot := state.snapshot && decide (choice ≠ .handle true) }
      | none => none
    | none => none
  | .signal index signal =>
    match state.children[index]? with
    | some child =>
      if child.live then
        some { state with
          children :=
            state.children.set index { child with pending := signal :: child.pending } }
      else none
    | none => none

end State

/-- The system with the syncer that the constructor builds from any configuration,
memory limit and tokenizer. -/
def syncMachine (capacity : Nat) : Machine State Choice where
  Initial state := ∃ tokenize argMax envpSize config,
    state = .start (Syncer.new tokenize argMax envpSize config)
  step := State.step capacity

section Machine

variable {capacity : Nat} {guard : Machine.Guard State Choice} {state next : State}
  {choice : Choice}

/-- A step of the joint system is a step of the machine. -/
theorem steps_of_step (allowed : guard state choice)
    (taken : state.step capacity choice = some next) :
    (syncMachine capacity).Steps guard state [choice] next :=
  .single allowed (show (syncMachine capacity).step state choice = some next from taken)

theorem reachable_step (reachable : (syncMachine capacity).Reachable guard state)
    (allowed : guard state choice) (taken : state.step capacity choice = some next) :
    (syncMachine capacity).Reachable guard next :=
  reachable.steps (steps_of_step allowed taken)

end Machine

/-! ## A daemon to run -/

/-- The tokenizer on texts without quotes and escapes. -/
def plainTokens (separators text : CString) : List CString :=
  if text.isEmpty then [] else text.splitOnP fun char => separators.contains char

/-- A daemon that sends to `destinations` with `rsync -a`. -/
def rsyncDaemon (nproc : Int) (destinations : CString) : State :=
  .start (Syncer.new plainTokens 2097152 1024
    { nproc := nproc, execBin := "rsync".toList, execFlags := "-a".toList
      destinations := destinations })

theorem rsyncDaemon_initial {capacity : Nat} (nproc : Int) (destinations : CString) :
    (syncMachine capacity).Initial (rsyncDaemon nproc destinations) :=
  ⟨_, _, _, _, rfl⟩

/-- A file of the snapshot, for evaluated runs. -/
def plainFile (path : CString) (size : Nat) : File where
  size := size
  isDirectory := false
  pathLen := path.length
  path := path
  rctime := .zero

/-- The child at `index` reaches its program, which prints nothing and exits. -/
def childExits (index code : Nat) : List Choice :=
  [.child index .resetSigint, .child index (.exec []), .child index (.exit code)]

end CephGeoRep
