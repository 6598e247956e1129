import CephGeoRep.Syncer.SyncProcess

/-!
# Forked children

The life of a child from `fork` to the `wait` that reaps it. Before `execvp` it
runs the child part of `sync_batch` with the signal handlers of the daemon, which
`signal(SIGINT, SIG_DFL)` resets for SIGINT only; afterwards it is the sync
program, whose output goes to a pipe the parent reads only after the exit.
-/

namespace CephGeoRep

/-- How a child ended, before `wait` encodes it. -/
inductive WaitStatus where
  | exited (code : Nat)
  | signaled (signo : Nat) (coreDumped : Bool)
deriving DecidableEq

/-- The `int` that `wait` stores: the exit code in the second byte, or the signal
number in the low seven bits with the core flag above them. -/
def WaitStatus.encode : WaitStatus → Nat
  | .exited code => code % 256 * 256
  | .signaled signo coreDumped => signo % 128 + if coreDumped then 128 else 0

/-- The macro `WEXITSTATUS`. -/
def wexitstatus (wstatus : Nat) : Nat := wstatus / 256 % 256

/-- `WEXITSTATUS` of a normal exit is the exit code. -/
@[simp]
theorem wexitstatus_exited (code : Nat) :
    wexitstatus (WaitStatus.exited code).encode = code % 256 := by
  simp [wexitstatus, WaitStatus.encode]

/-- `WEXITSTATUS` of a child killed by a signal is 0, whatever the signal. -/
@[simp]
theorem wexitstatus_signaled (signo : Nat) (coreDumped : Bool) :
    wexitstatus (WaitStatus.signaled signo coreDumped).encode = 0 := by
  have low : signo % 128 < 128 := Nat.mod_lt _ (by decide)
  simp only [wexitstatus, WaitStatus.encode]
  cases coreDumped
  · simp only [Bool.false_eq_true, ↓reduceIte]
    omega
  · simp only [↓reduceIte]
    omega

/-- The exit codes the source names. -/
def protocolStream : Nat := 12
def partialXfr : Nat := 23
def timeoutSR : Nat := 30
def timeoutConn : Nat := 35
def checkShmem : Nat := 145
def sshFail : Nat := 255

/-- `E2BIG`. -/
def e2big : Nat := 7

/-- The signals for which `set_signal_handlers` installs `sig_hdlr`. -/
inductive Signal where
  | int
  | term
  | quit
deriving DecidableEq

/-- Their numbers. -/
def Signal.number : Signal → Nat
  | .int => 2
  | .term => 15
  | .quit => 3

/-- Where a child is. -/
inductive ChildPhase where
  /-- Forked; all handlers of the daemon are installed. -/
  | forked
  /-- Behind `signal(SIGINT, SIG_DFL)` and before `execvp`. -/
  | reset
  /-- `execvp` succeeded; the program still has to write `unwritten`. -/
  | program (unwritten : CString)
  /-- `execvp` failed; `exit(CHECK_SHMEM)` is next. -/
  | failed
  /-- In the inherited `sig_hdlr`. -/
  | handler
  /-- Behind the clean-up of `sig_hdlr`, in `exit(code)`. -/
  | leaving (code : Nat)
  | zombie (status : WaitStatus)
  | reaped (status : WaitStatus)
deriving DecidableEq

/-- A forked child. `argv` is the `payload_` it was forked with and `execError`
the content of its `exec_error_` mapping (`none` while `exec_failed_` is false).
The rest is bookkeeping: which process and batch it was forked for, the
destination at that moment, whether it reached the sync program and whether it
ran the handler of the daemon. -/
structure Child where
  pid : Nat
  argv : List Arg
  phase : ChildPhase
  execError : Option Nat
  pipe : CString
  pending : List Signal
  proc : Nat
  batch : List Nat
  destination : CString
  execed : Bool
  cleanedUp : Bool
deriving DecidableEq

namespace Child

/-- The child that `sync_batch` forks for a process. -/
def fork (process : SyncProcess) (pid : Nat) (destination : CString) : Child where
  pid := pid
  argv := process.payload
  phase := .forked
  execError := none
  pipe := []
  pending := []
  proc := process.id
  batch := process.batch
  destination := destination
  execed := false
  cleanedUp := false

/-- Not yet reaped by `wait`. -/
def outstanding (child : Child) : Bool :=
  match child.phase with
  | .reaped _ => false
  | _ => true

/-- Not yet ended. -/
def live (child : Child) : Bool :=
  match child.phase with
  | .zombie _ | .reaped _ => false
  | _ => true

/-- Blocked in a write: the program has output left and its pipe is full. -/
def blocked (capacity : Nat) (child : Child) : Bool :=
  match child.phase with
  | .program unwritten => !unwritten.isEmpty && decide (capacity ≤ child.pipe.length)
  | _ => false

end Child

/-- What a child does next. -/
inductive ChildChoice where
  /-- `close(pipefd_[0])` and `signal(SIGINT, SIG_DFL)`. -/
  | resetSigint
  /-- `execvp` succeeds; the program is going to write `output`. -/
  | exec (output : CString)
  | execFail (errno : Nat)
  /-- The program writes the next `count` characters. -/
  | write (count : Nat)
  /-- The program ends. -/
  | exit (code : Nat)
  /-- `exit` in the child part of `sync_batch` or in `sig_hdlr`. -/
  | leave
  /-- A pending signal arrives; the program may survive it. -/
  | deliver (signal : Signal) (fatal : Bool)
  /-- `sig_hdlr` writes the watermark and deletes the snapshot; `removed` tells
  whether the removal succeeded. -/
  | handle (removed : Bool)
  /-- The child dies from a signal nobody handles. -/
  | kill (signo : Nat) (coreDumped : Bool)
deriving DecidableEq

/-- Where a delivered signal leads. Until `execvp` the handler of the daemon is
installed, except for SIGINT behind its reset. A child already in the handler
gains nothing from a second signal. -/
def ChildPhase.deliver (signal : Signal) (fatal : Bool) : ChildPhase → ChildPhase
  | .forked => .handler
  | .reset | .failed =>
    match signal with
    | .int => .zombie (.signaled Signal.int.number false)
    | _ => .handler
  | .program unwritten =>
    if fatal then .zombie (.signaled signal.number false) else .program unwritten
  | phase => phase

/-- One step of a child whose pipe holds `capacity` characters. -/
def Child.step (capacity : Nat) (child : Child) : ChildChoice → Option Child
  | .resetSigint =>
    if child.phase = .forked then some { child with phase := .reset } else none
  | .exec output =>
    if child.phase = .reset then
      some { child with phase := .program output, execed := true }
    else none
  | .execFail errno =>
    if child.phase = .reset then
      some { child with phase := .failed, execError := some errno }
    else none
  | .write count =>
    match child.phase with
    | .program unwritten =>
      if 0 < count ∧ count ≤ unwritten.length ∧ child.pipe.length + count ≤ capacity then
        some { child with
          phase := .program (unwritten.drop count)
          pipe := child.pipe ++ unwritten.take count }
      else none
    | _ => none
  | .exit code =>
    if child.phase = .program [] then some { child with phase := .zombie (.exited code) }
    else none
  | .leave =>
    match child.phase with
    | .failed => some { child with phase := .zombie (.exited checkShmem) }
    | .leaving code => some { child with phase := .zombie (.exited code) }
    | _ => none
  | .deliver signal fatal =>
    if signal ∈ child.pending ∧ child.live then
      some { child with
        pending := child.pending.erase signal
        phase := child.phase.deliver signal fatal }
    else none
  | .handle removed =>
    if child.phase = .handler then
      some { child with phase := .leaving (if removed then 0 else 1), cleanedUp := true }
    else none
  | .kill signo coreDumped =>
    if child.live then some { child with phase := .zombie (.signaled signo coreDumped) }
    else none

namespace Child

/-- What no step of a child changes: its identity, and that only `wait` reaps. A
reaped child does nothing. -/
structure Continues (before after : Child) : Prop where
  pid : after.pid = before.pid
  argv : after.argv = before.argv
  proc : after.proc = before.proc
  batch : after.batch = before.batch
  destination : after.destination = before.destination
  outstanding : after.outstanding = before.outstanding
  still : before.outstanding = false → after = before

theorem Continues.refl (child : Child) : child.Continues child :=
  ⟨rfl, rfl, rfl, rfl, rfl, rfl, fun _ => rfl⟩

theorem outstanding_of_live {child : Child} (live : child.live = true) :
    child.outstanding = true := by
  rw [Child.live] at live
  rw [Child.outstanding]
  split <;> simp_all

/-- Delivering a signal never reaps. -/
theorem outstanding_deliver {child : Child} (signal : Signal) (fatal : Bool)
    (live : child.live = true) (pending : List Signal) :
    ({ child with pending := pending,
                  phase := child.phase.deliver signal fatal } : Child).outstanding = true := by
  rw [Child.live] at live
  unfold Child.outstanding ChildPhase.deliver
  cases phase : child.phase <;> simp_all <;> cases signal <;> cases fatal <;> simp

/-- A child that was not reaped and still is not continues. -/
theorem continues_of_outstanding {before after : Child} (pid : after.pid = before.pid)
    (argv : after.argv = before.argv) (proc : after.proc = before.proc)
    (batch : after.batch = before.batch) (destination : after.destination = before.destination)
    (held : before.outstanding = true) (held' : after.outstanding = true) :
    before.Continues after where
  pid := pid
  argv := argv
  proc := proc
  batch := batch
  destination := destination
  outstanding := held'.trans held.symm
  still gone := by simp [held] at gone

/-- Receiving a signal continues a child. -/
theorem continues_of_signal {child : Child} (live : child.live = true)
    (pending : List Signal) : child.Continues { child with pending := pending } :=
  have held := outstanding_of_live live
  continues_of_outstanding rfl rfl rfl rfl rfl held held

/-- Every step of a child continues it. -/
theorem continues_of_step {capacity : Nat} {before after : Child} {choice : ChildChoice}
    (taken : before.step capacity choice = some after) : before.Continues after := by
  unfold Child.step at taken
  cases choice with
  | deliver signal fatal =>
      simp only [Option.ite_none_right_eq_some, Option.some.injEq] at taken
      obtain ⟨⟨_, live⟩, rfl⟩ := taken
      exact continues_of_outstanding rfl rfl rfl rfl rfl (outstanding_of_live live)
        (outstanding_deliver signal fatal live _)
  | kill signo coreDumped =>
      simp only [Option.ite_none_right_eq_some, Option.some.injEq] at taken
      obtain ⟨live, rfl⟩ := taken
      exact continues_of_outstanding rfl rfl rfl rfl rfl (outstanding_of_live live) rfl
  | write count =>
      cases phase : before.phase <;> simp only [phase, reduceCtorEq] at taken
      simp only [Option.ite_none_right_eq_some, Option.some.injEq] at taken
      obtain ⟨_, rfl⟩ := taken
      refine continues_of_outstanding rfl rfl rfl rfl rfl ?_ ?_ <;>
        simp [Child.outstanding, phase]
  | leave =>
      cases phase : before.phase <;>
        simp only [phase, reduceCtorEq, Option.some.injEq] at taken <;> subst taken <;>
        refine continues_of_outstanding rfl rfl rfl rfl rfl ?_ ?_ <;>
        simp [Child.outstanding, phase]
  | _ =>
      simp only [Option.ite_none_right_eq_some, Option.some.injEq] at taken
      obtain ⟨phase, rfl⟩ := taken
      refine continues_of_outstanding rfl rfl rfl rfl rfl ?_ ?_ <;>
        simp [Child.outstanding, phase]

end Child

end CephGeoRep
