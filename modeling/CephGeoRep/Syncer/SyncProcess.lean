import CephGeoRep.Syncer.Syncer

/-!
# Sync processes

A `SyncProcess` strides through the shared queue with `file_itr_`, packs paths
into `payload_` until the memory limit is met and terminates the vector with the
destination and `NULL`. Iterators into the queue are positions, so a stride past
the end is a position at or beyond the length.
-/

namespace CephGeoRep

/-- `class SyncProcess`. `lastChild` is the child forked by the latest
`sync_batch`: it stands for the mapping `exec_error_` and the read end of
`pipefd_`, both of which belong to that launch. `batch` is bookkeeping: the queue
positions of the files in `payload_`. -/
structure SyncProcess where
  id : Nat
  inc : Nat
  inc_pos : 0 < inc
  pid : Nat
  startPayloadSz : Nat
  maxMemUsage : Nat
  startMemUsage : Nat
  currMemUsage : Nat
  currPayloadBytes : Nat
  sendingTo : CString
  fileItr : Nat
  payload : List Arg
  lastChild : Option Nat
  batch : List Nat

namespace SyncProcess

/-- The constructor; `file_itr_` starts at `id_`. -/
def new (parent : Syncer) (nproc : Nat) (pos : 0 < nproc) (id : Nat) : SyncProcess where
  id := id
  inc := nproc
  inc_pos := pos
  pid := 0
  startPayloadSz := parent.startPayload.length
  maxMemUsage := parent.maxMemUsage
  startMemUsage := parent.startMemUsage
  currMemUsage := parent.startMemUsage
  currPayloadBytes := 0
  sendingTo := parent.destinations.star
  fileItr := id
  payload := parent.startPayload
  lastChild := none
  batch := []

/-- `SyncProcess::add`. -/
def add (process : SyncProcess) (file : File) : SyncProcess :=
  { process with
    payload := process.payload ++ [some file.path]
    currMemUsage := sizeT (process.currMemUsage + file.pathLen + 1 + sizeofPtr)
    currPayloadBytes := sizeT (process.currPayloadBytes + file.size)
    batch := process.batch ++ [process.fileItr] }

/-- `SyncProcess::full_test`. -/
def fullTest (process : SyncProcess) (file : File) : Bool :=
  sizeT (process.currMemUsage + file.pathLen + 1 + sizeofPtr) ≥ process.maxMemUsage

/-- The loop of `SyncProcess::consume`. Every round advances `file_itr_` by at
least one, so as many rounds as the queue has files are enough. -/
def fill (queue : List File) : Nat → SyncProcess → SyncProcess
  | 0, process => process
  | rounds + 1, process =>
    match queue[process.fileItr]? with
    | none => process
    | some file =>
      if process.fullTest file then process
      else fill queue rounds { process.add file with fileItr := process.fileItr + process.inc }

/-- What `consume` and `change_destination` push behind the files. -/
def trailer (destination : CString) : List Arg :=
  if destination.isEmpty then [none] else [some destination, none]

/-- `SyncProcess::consume`. -/
def consume (process : SyncProcess) (queue : List File) (destination : CString) :
    SyncProcess :=
  let process := process.fill queue queue.length
  { process with
    sendingTo := if destination.isEmpty then process.sendingTo else destination
    payload := process.payload ++ trailer destination }

/-- `SyncProcess::change_destination`: `NULL` and the old destination are popped,
whatever the last two elements are. -/
def changeDestination (process : SyncProcess) (destination : CString) : SyncProcess :=
  if destination.isEmpty then process
  else
    { process with
      sendingTo := destination
      payload := process.payload.dropLast.dropLast ++ trailer destination }

/-- `SyncProcess::reset`. -/
def reset (process : SyncProcess) : SyncProcess :=
  { process with
    payload := process.payload.take process.startPayloadSz
    currMemUsage := process.startMemUsage
    currPayloadBytes := 0
    batch := [] }

/-- `SyncProcess::done`. -/
def done (process : SyncProcess) (queue : List File) : Bool :=
  process.fileItr ≥ queue.length

/-- The fields `sync_batch` sets when `fork` returns `pid` in the parent. -/
def started (process : SyncProcess) (pid child : Nat) : SyncProcess :=
  { process with pid := pid, lastChild := some child }

/-! What each operation leaves unchanged. -/

section Frame

variable (process : SyncProcess) (parent : Syncer) (queue : List File) (destination : CString)

@[simp] theorem new_id (nproc : Nat) (pos : 0 < nproc) (id : Nat) :
    (new parent nproc pos id).id = id := rfl

@[simp] theorem started_id (pid child : Nat) : (process.started pid child).id = process.id := rfl
@[simp] theorem started_inc (pid child : Nat) :
    (process.started pid child).inc = process.inc := rfl
@[simp] theorem started_pid (pid child : Nat) : (process.started pid child).pid = pid := rfl
@[simp] theorem started_batch (pid child : Nat) :
    (process.started pid child).batch = process.batch := rfl
@[simp] theorem started_fileItr (pid child : Nat) :
    (process.started pid child).fileItr = process.fileItr := rfl
@[simp] theorem started_payload (pid child : Nat) :
    (process.started pid child).payload = process.payload := rfl
@[simp] theorem started_sendingTo (pid child : Nat) :
    (process.started pid child).sendingTo = process.sendingTo := rfl
@[simp] theorem started_lastChild (pid child : Nat) :
    (process.started pid child).lastChild = some child := rfl

@[simp] theorem reset_id : process.reset.id = process.id := rfl
@[simp] theorem reset_inc : process.reset.inc = process.inc := rfl
@[simp] theorem reset_pid : process.reset.pid = process.pid := rfl
@[simp] theorem reset_fileItr : process.reset.fileItr = process.fileItr := rfl
@[simp] theorem reset_batch : process.reset.batch = [] := rfl
@[simp] theorem reset_done : process.reset.done queue = process.done queue := rfl

@[simp] theorem changeDestination_id :
    (process.changeDestination destination).id = process.id := by
  rw [changeDestination]
  split <;> rfl

@[simp] theorem changeDestination_inc :
    (process.changeDestination destination).inc = process.inc := by
  rw [changeDestination]
  split <;> rfl

@[simp] theorem changeDestination_pid :
    (process.changeDestination destination).pid = process.pid := by
  rw [changeDestination]
  split <;> rfl

@[simp] theorem changeDestination_fileItr :
    (process.changeDestination destination).fileItr = process.fileItr := by
  rw [changeDestination]
  split <;> rfl

@[simp] theorem changeDestination_batch :
    (process.changeDestination destination).batch = process.batch := by
  rw [changeDestination]
  split <;> rfl

end Frame

end SyncProcess

end CephGeoRep
