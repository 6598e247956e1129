import CephGeoRep.Syncer.Progress

/-!
# Files that do not fit

A file that does not fit on a fresh payload stops its process for good: `consume`
takes nothing, the sync program succeeds on an empty file list, and the process is
launched again. Such a round has no end, so a round makes progress exactly when all
files fit.
-/

namespace CephGeoRep

open Semantics Support

namespace State

/-- The process of the file at `limit` has not got past it. -/
def Held (procs : List SyncProcess) (step limit : Nat) : Prop :=
  ∃ process ∈ procs, process.id = limit % step ∧ process.fileItr ≤ limit

/-- The file at `limit` does not fit on a fresh payload; the memory of all paths can
be counted in a `size_t`. -/
structure Unfit (base : State) (limit : Nat) (file : File) : Prop where
  found : base.queue[limit]? = some file
  full : base.syncer.fits file = false
  small : base.syncer.startMemUsage + SyncProcess.memOf base.queue base.queue.length < 2 ^ 64

variable {capacity : Nat} {base state next : State} {limit step : Nat} {file : File}
  {process old : SyncProcess}

/-- `consume` stops at the latest at a file that does not fit. -/
theorem Unfit.consume_le (unfit : Unfit base limit file) (emptied : Emptied process base)
    (residue : process.fileItr % process.inc = limit % process.inc)
    (before : process.fileItr ≤ limit) (destination : CString) :
    (process.consume base.queue destination).fileItr ≤ limit := by
  have small := unfit.small
  have total := SyncProcess.memOf_le_length base.queue (limit + 1)
  rw [SyncProcess.memOf_succ unfit.found] at total
  have full : base.syncer.maxMemUsage ≤
      base.syncer.startMemUsage + file.pathLen + 1 + sizeofPtr := by
    have full := unfit.full
    have unwrapped : sizeT (base.syncer.startMemUsage + file.pathLen + 1 + sizeofPtr) =
        base.syncer.startMemUsage + file.pathLen + 1 + sizeofPtr :=
      Nat.mod_eq_of_lt (by omega)
    simpa [Syncer.fits, unwrapped] using full
  exact SyncProcess.fill_le unfit.found full small base.queue.length process before residue
    emptied.maxMem (by rw [emptied.currMem]) (by rw [emptied.currMem]; omega)

/-- Writing back a process that has not got past the file. -/
theorem Held.setProc (held : Held state.procs step limit)
    (distinct : (state.procs.map SyncProcess.id).Nodup) (member : old ∈ state.procs)
    (same : process.id = old.id)
    (kept : old.id = limit % step → old.fileItr ≤ limit → process.fileItr ≤ limit) :
    Held (state.setProc process).procs step limit := by
  obtain ⟨stuck, listed, here, before⟩ := held
  by_cases equal : stuck.id = process.id
  · have found : stuck = old :=
      List.inj_on_of_nodup_map distinct listed member (equal.trans same)
    subst found
    exact ⟨process, mem_setProc.mpr (.inl ⟨rfl, stuck, listed, equal⟩), equal ▸ here,
      kept here before⟩
  · exact ⟨stuck, mem_setProc.mpr (.inr ⟨listed, equal⟩), here, before⟩

/-- A process that is through with the queue is not the one that is stuck. -/
theorem Held.eraseProc (held : Held state.procs step limit)
    (distinct : (state.procs.map SyncProcess.id).Nodup) (member : process ∈ state.procs)
    (past : limit < process.fileItr) : Held (state.eraseProc process.id).procs step limit := by
  obtain ⟨stuck, listed, here, before⟩ := held
  have differs : stuck.id ≠ process.id := by
    intro equal
    have found : stuck = process := List.inj_on_of_nodup_map distinct listed member equal
    rw [found] at before
    omega
  exact ⟨stuck, (mem_eraseProc distinct).mpr ⟨listed, differs⟩, here, before⟩

/-- No step gets a process past a file that does not fit. -/
theorem Held.of_step {choice : Choice} (unfit : Unfit base limit file)
    (underway : Underway capacity base state)
    (held : Held state.procs base.numSshFailsToInc limit)
    (allowed : zeroExits state choice) (taken : state.step capacity choice = some next) :
    Held next.procs base.numSshFailsToInc limit := by
  have steady := underway.steady
  have distinct := (accounted_invariant.of_reachable underway.reachable).distinct
  have batched := batched_invariant.of_reachable underway.reachable
  have addressed := addressed_invariant.of_reachable underway.reachable
  cases underway.zeroMove allowed taken with
  | @launch id todo process pid here found =>
      obtain ⟨member, same⟩ := proc?_eq_some found
      obtain ⟨emptied, fileItr, _⟩ := steady.emptied addressed here found
      rw [launch_eq]
      refine held.setProc distinct member (by simp) fun own before => ?_
      have residue : process.fileItr % process.inc = limit % process.inc := by
        rw [fileItr, own, batched.strides process member, steady.count, Nat.mod_mod]
      rw [steady.queue]
      exact unfit.consume_le emptied residue before state.destination
  | relaunch _ found =>
      exact held.setProc distinct (proc?_eq_some found).1 rfl fun _ before => before
  | @finished _ _ _ _ process _ _ _ member done =>
      have past : state.queue.length ≤ process.fileItr := by
        simpa [SyncProcess.done] using done
      obtain ⟨inside, _⟩ := List.getElem?_eq_some_iff.mp unfit.found
      rw [steady.queue] at past
      exact held.eraseProc distinct member (by omega)
  | @more _ _ _ _ process waiting _ _ member _ =>
      refine held.setProc distinct member (by simp) fun own before => ?_
      have parted := (batched.parted (by rw [waiting]; rfl)).2
      have residue : process.fileItr % process.inc = limit % process.inc := by
        have here := parted.residue process.id process.fileItr
          (work_of_mem distinct waiting member).1
        rw [batched.strides process member, here, own, steady.count]
      show (process.reset.consume state.queue state.destination).fileItr ≤ limit
      rw [steady.queue]
      exact unfit.consume_le (steady.emptied_reset member) residue before state.destination
  | _ => exact held

/-! ## A run without end -/

/-- No child has done anything yet. -/
def Untried (children : List Child) : Prop :=
  ∀ child ∈ children, child.outstanding = true → child.phase = .forked

/-- A state of the round that is about to relaunch the stuck process for ever. -/
structure Driven (capacity : Nat) (base : State) (limit : Nat) (state : State) : Prop where
  underway : Underway capacity base state
  held : Held state.procs base.numSshFailsToInc limit
  untried : Untried state.children

/-- `fork` always succeeds in starting the process at the head of a loop. -/
theorem Driven.fork {loop : List Nat → Control} {id : Nat} {todo : List Nat}
    (driven : Driven capacity base limit state) (unfit : Unfit base limit file)
    (isLoop : IsLoop loop) (control : state.control = loop (id :: todo)) :
    ∃ choices next, (syncMachine capacity).Steps zeroExits state choices next ∧
      Driven capacity base limit next ∧
      next.control = (if todo.isEmpty then .waiting else loop todo) ∧
      next.children.length = state.children.length + 1 := by
  obtain ⟨pid, next, taken⟩ := exists_fork isLoop control capacity
  have allowed : zeroExits state (.fork pid) := trivial
  have underway := driven.underway.of_step allowed taken
  have held := driven.held.of_step unfit driven.underway allowed taken
  refine ⟨[.fork pid], next, steps_of_step allowed taken, ⟨underway, held, ?_⟩, ?_, ?_⟩
  all_goals
    rcases launch_of_fork taken with equal | ⟨loop', id', todo', old, process, formed, isLoop',
      control', _, _, _, equal⟩
    · exact absurd (by rw [equal]) underway.booked.defined
    obtain ⟨rfl, rfl⟩ : loop' = loop ∧ todo' = todo := by
      rw [control] at control'
      rcases isLoop with rfl | rfl | rfl <;> rcases isLoop' with rfl | rfl | rfl <;>
        simp_all
  · rw [equal]
    intro child member held
    rcases List.mem_append.mp member with before | new
    · exact driven.untried child before held
    · rw [List.mem_singleton.mp new]
      rfl
  · obtain ⟨stuck, listed, _⟩ := held
    rw [equal] at listed ⊢
    have some : (state.setProc (process.started pid state.children.length)).procs ≠ [] :=
      List.ne_nil_of_mem listed
    show (if todo'.isEmpty then loopHead _ else loop' todo') = _
    split
    · exact if_neg (by simpa using some)
    · rfl
  · rw [equal]
    exact List.length_append

/-- A child that has not done anything yet can run its program and exit with 0. -/
theorem run_childExits {index : Nat} {child : Child}
    (found : state.children[index]? = some child) (forked : child.phase = .forked) :
    (syncMachine capacity).run zeroExits state (childExits index 0) = some { state with
      children := state.children.set index
        { child with phase := .zombie (.exited 0), execed := true } } := by
  obtain ⟨bound, rfl⟩ := List.getElem?_eq_some_iff.mp found
  simp [childExits, Machine.run, zeroExits, syncMachine, State.step, Child.step,
    forked, bound]

/-- No step of a run within the round gets a process past the file. -/
theorem Held.of_steps {choices : List Choice} {final : State} (unfit : Unfit base limit file)
    (underway : Underway capacity base state)
    (held : Held state.procs base.numSshFailsToInc limit)
    (steps : (syncMachine capacity).Steps zeroExits state choices final) :
    Underway capacity base final ∧ Held final.procs base.numSshFailsToInc limit := by
  induction steps with
  | refl => exact ⟨underway, held⟩
  | step _ allowed taken ih =>
      exact ⟨ih.1.of_step allowed taken, ih.2.of_step unfit ih.1 allowed taken⟩

/-- Exit code 0 retires the batch of the process whose child `wait` returned. -/
theorem waitStep_of_zero {index : Nat} {child : Child} {status : WaitStatus} {logOpens : Bool}
    (waiting : state.control = .waiting) (found : state.children[index]? = some child)
    (ended : child.phase = .zombie status)
    (owner : (state.procs.find? fun process => process.pid == child.pid) = some process)
    (zero : wexitstatus status.encode = 0) :
    state.waitStep index logOpens = some ((state.reap index child status).succeed process) := by
  simp [waitStep, found, ended, waiting, owner, handleReturned, zero]

/-- At the `wait`, the child of the stuck process can exit with 0; the process forms
its next batch. -/
theorem Driven.wait (driven : Driven capacity base limit state) (unfit : Unfit base limit file)
    (waiting : state.control = .waiting) :
    ∃ choices next id, (syncMachine capacity).Steps zeroExits state choices next ∧
      Driven capacity base limit next ∧ next.control = .relaunching [id] ∧
      next.children.length = state.children.length := by
  have accounted := accounted_invariant.of_reachable driven.underway.reachable
  obtain ⟨stuck, member, _, before⟩ := driven.held
  have linked := driven.underway.booked.linked (by rw [waiting]; rfl)
  rw [childless_of_waiting waiting, driven.underway.steady.parked] at linked
  obtain ⟨index, child, owns⟩ := linked.owner stuck member List.not_mem_nil
  have forked := driven.untried child (List.mem_of_getElem? owns.found) owns.outstanding
  have exits : (syncMachine capacity).Steps zeroExits state (childExits index 0) _ :=
    Machine.steps_of_run (run_childExits owns.found forked)
  obtain ⟨bound, _⟩ := List.getElem?_eq_some_iff.mp owns.found
  set ended : Child := { child with phase := .zombie (.exited 0), execed := true } with zombie
  set ready : State := { state with children := state.children.set index ended } with equal
  obtain ⟨underway, held⟩ := Held.of_steps unfit driven.underway driven.held exits
  have found : ready.children[index]? = some ended := List.getElem?_set_self bound
  have linked' := underway.booked.linked (show ready.control.inRound = true by
    rw [show ready.control = state.control from rfl, waiting]; rfl)
  have accounted' := accounted_invariant.of_reachable underway.reachable
  obtain ⟨process, listed, _, owns', owner⟩ := owner_of_wait linked' accounted' found rfl
  have same : process = stuck := by
    refine List.inj_on_of_nodup_map accounted.distinct listed member ?_
    rw [← owns'.proc, ← owns.proc]
  subst same
  obtain ⟨inside, _⟩ := List.getElem?_eq_some_iff.mp unfit.found
  have left : process.reset.done (ready.reap index ended (.exited 0)).queue = false := by
    show decide (state.queue.length ≤ process.fileItr) = false
    rw [driven.underway.steady.queue, decide_eq_false_iff_not]
    omega
  have waiting' : ready.control = .waiting := waiting
  have taken : ready.step capacity (.wait index true) =
      some ((ready.reap index ended (.exited 0)).succeed process) :=
    waitStep_of_zero waiting' found rfl owner rfl
  have allowed : zeroExits ready (.wait index true) := by
    show (ready.children[index]?.all Child.exitedZero) = true
    rw [found]
    rfl
  refine ⟨_, _, process.id, exits.trans (steps_of_step allowed taken),
    ⟨underway.of_step allowed taken, held.of_step unfit underway allowed taken, ?_⟩, ?_, ?_⟩
  all_goals
    rw [succeed]
    rw [if_neg (by simp [left])]
  · intro other listed held
    have listed' : other ∈ (ready.children.set index
        { ended with phase := .reaped (.exited 0) }) := listed
    rw [equal, List.set_set] at listed'
    rcases List.mem_or_eq_of_mem_set listed' with old | rfl
    · exact driven.untried other old held
    · cases held
  · show (continueWith _ Control.relaunching (process.id :: state.sshFailProcs)).control = _
    rw [driven.underway.steady.parked]
    rfl
  · show ((state.children.set index ended).set index _).length = _
    rw [List.length_set, List.length_set]

/-- The stuck process is launched again. -/
theorem Driven.relaunch (unfit : Unfit base limit file) (state : State)
    (driven : Driven capacity base limit state ∧ state.control = .waiting) :
    ∃ choices next, (syncMachine capacity).Steps zeroExits state choices next ∧
      (Driven capacity base limit next ∧ next.control = .waiting) ∧
      state.children.length < next.children.length := by
  obtain ⟨exits, ready, id, prior, driven', control, same⟩ := driven.1.wait unfit driven.2
  obtain ⟨fork, next, suffix, again, control', more⟩ :=
    driven'.fork unfit relaunching_isLoop control
  exact ⟨exits ++ fork, next, prior.trans suffix, ⟨again, control'⟩, by omega⟩

/-- The first launches of a round lead to its first `wait`. -/
theorem Driven.launch {id : Nat} {todo : List Nat} (unfit : Unfit base limit file)
    (driven : Driven capacity base limit state)
    (control : state.control = .launching (id :: todo)) :
    ∃ choices next, (syncMachine capacity).Steps zeroExits state choices next ∧
      Driven capacity base limit next ∧ next.control = .waiting := by
  induction todo generalizing state id with
  | nil =>
      obtain ⟨choices, next, steps, driven', control', _⟩ :=
        driven.fork unfit launching_isLoop control
      exact ⟨choices, next, steps, driven', control'⟩
  | cons second rest ih =>
      obtain ⟨first, middle, steps, driven', control', _⟩ :=
        driven.fork unfit launching_isLoop control
      obtain ⟨later, next, steps', there, waiting⟩ := ih driven' control'
      exact ⟨first ++ later, next, steps.trans steps', there, waiting⟩

/-- When a file does not fit, the number of launches of a round has no bound. -/
theorem endless_of_unfit (starts : base.Starts)
    (reachable : (syncMachine capacity).Reachable Machine.unguarded base)
    (unfit : Unfit base limit file) (bound : Nat) :
    ∃ choices final, (syncMachine capacity).Steps zeroExits base choices final ∧
      bound ≤ final.children.length := by
  have underway : Underway capacity base base := ⟨reachable, starts.booked, starts.steady⟩
  have control := starts.control
  have positive := starts.count.1
  have held : Held base.procs base.numSshFailsToInc limit := by
    have linked := underway.booked.linked (by rw [control]; rfl)
    have below : limit % base.numSshFailsToInc ∈ List.range base.numSshFailsToInc :=
      List.mem_range.mpr (Nat.mod_lt _ positive)
    obtain ⟨process, member, same⟩ := linked.listed (limit % base.numSshFailsToInc) (by
      rw [childless, control]
      exact List.mem_append_left _ below)
    have start := (starts.steady.fresh process member (by rw [control, same]; exact below)).1
    refine ⟨process, member, same, ?_⟩
    rw [start, same]
    exact Nat.mod_le _ _
  have untried : Untried base.children := by
    rw [starts.children]
    intro child member
    cases member
  obtain ⟨id, todo, first⟩ : ∃ id todo, List.range base.numSshFailsToInc = id :: todo :=
    List.exists_cons_of_ne_nil (List.range_eq_nil.not.mpr (Nat.ne_of_gt positive))
  rw [first] at control
  obtain ⟨launches, middle, prior, driven, waiting⟩ :=
    Driven.launch unfit ⟨underway, held, untried⟩ control
  obtain ⟨relaunches, final, suffix, _, reached⟩ :=
    Machine.Steps.unbounded (Driven.relaunch unfit) ⟨driven, waiting⟩ bound
  exact ⟨launches ++ relaunches, final, prior.trans suffix, reached⟩

/-- A round starts where `sync` is called and where it is repeated with more headroom. -/
theorem starts_of_step {choice : Choice} (taken : state.step capacity choice = some next)
    (reachable : (syncMachine capacity).Reachable Machine.unguarded state)
    (starting : (∃ queue sorted, choice = .sync queue sorted) ∨
      choice = .afterRound ∧ next.control.inRound = true) : next.Starts := by
  have accounted := accounted_invariant.of_reachable reachable
  cases moves_of_step taken with
  | sync idle _ _ =>
      rw [launchProcs]
      apply starts_startRound
      · exact accounted.outstanding_eq_nil (by rw [idle]; rfl)
      · exact Syncer.launchCount_le ..
  | newRound returned _ =>
      rw [launchProcs]
      apply starts_startRound
      · exact accounted.outstanding_eq_nil (by rw [returned]; rfl)
      · exact Syncer.launchCount_le ..
  | success _ => simp [Control.inRound] at starting
  | failure _ _ => simp [Control.inRound, exitFailure] at starting
  | _ => simp at starting

/-- A round whose files all fit on a fresh payload gets on and comes to its end as
long as its children exit with code 0. With a file that does not fit it does not: such
a round can launch children without end. -/
theorem progress_of_reachable {choice : Choice}
    (reachable : (syncMachine capacity).Reachable Machine.unguarded state)
    (taken : state.step capacity choice = some next)
    (starting : (∃ queue sorted, choice = .sync queue sorted) ∨
      choice = .afterRound ∧ next.control.inRound = true) :
    ((∀ file ∈ next.queue, next.syncer.fits file = true) → Progresses capacity next) ∧
    (next.syncer.startMemUsage + SyncProcess.memOf next.queue next.queue.length < 2 ^ 64 →
      (Progresses capacity next ↔ ∀ file ∈ next.queue, next.syncer.fits file = true) ∧
      ∀ file ∈ next.queue, next.syncer.fits file = false → ∀ bound, ∃ choices final,
        (syncMachine capacity).Steps zeroExits next choices final ∧
          bound ≤ final.children.length) := by
  have starts := starts_of_step taken reachable starting
  have reachable' := reachable_step reachable trivial taken
  have progresses := progresses_of_fits starts reachable'
  refine ⟨progresses, fun small => ?_⟩
  have endless : ∀ file ∈ next.queue, next.syncer.fits file = false → ∀ bound,
      ∃ choices final, (syncMachine capacity).Steps zeroExits next choices final ∧
        bound ≤ final.children.length := by
    intro file member full
    obtain ⟨limit, found⟩ := List.mem_iff_getElem?.mp member
    exact endless_of_unfit starts reachable' ⟨found, full, small⟩
  refine ⟨⟨fun gets file member => ?_, progresses⟩, endless⟩
  by_contra unfit
  obtain ⟨choices, final, steps, many⟩ := endless file member (by simpa using unfit)
    (max next.queue.length 1 + 1)
  have few := (gets choices final steps).2.1
  omega

/-- A daemon for which `sysconf` has no answer, with an environment of 1900 bytes. -/
def tightDaemon : State :=
  .start (Syncer.new plainTokens (-1) 1900
    { nproc := 2, execBin := "rsync".toList, execFlags := "-a".toList
      destinations := "a:b".toList })

/-- What a round of `tightDaemon` sends. -/
def shortQueue : List File := [plainFile "/s/./a".toList 1, plainFile "/s/./b".toList 2]

theorem progress_of_shortPaths :
    ∃ next, tightDaemon.step 4 (.sync shortQueue shortQueue) = some next ∧
      Progresses 4 next := by
  have initial : (syncMachine 4).Initial tightDaemon := ⟨_, _, _, _, rfl⟩
  have executed : (tightDaemon.step 4 (.sync shortQueue shortQueue)).any (fun next =>
      decide (∀ file ∈ next.queue, next.syncer.fits file = true)) = true := by decide +kernel
  obtain ⟨next, taken, fits⟩ := (Option.any_eq_true ..).mp executed
  have progress := progress_of_reachable (Machine.Reachable.initial initial) taken
    (.inl ⟨_, _, rfl⟩)
  exact ⟨next, taken, progress.1 (of_decide_eq_true fits)⟩

/-- A path of 200 characters, for a limit of 148. -/
def longPath : File := plainFile (List.replicate 200 'a') 1

theorem endless_of_longPath :
    ∃ next, tightDaemon.step 4 (.sync [longPath] [longPath]) = some next ∧
      next.queue = [longPath] ∧ ¬ Progresses 4 next ∧
      ∀ bound, ∃ choices final, (syncMachine 4).Steps zeroExits next choices final ∧
        bound ≤ final.children.length := by
  have initial : (syncMachine 4).Reachable Machine.unguarded tightDaemon :=
    .initial ⟨_, _, _, _, rfl⟩
  have executed : (tightDaemon.step 4 (.sync [longPath] [longPath])).any (fun next =>
      decide (next.queue = [longPath] ∧ next.syncer.fits longPath = false ∧
        next.syncer.startMemUsage + SyncProcess.memOf next.queue next.queue.length
          < 2 ^ 64)) = true := by
    decide +kernel
  obtain ⟨next, taken, ended⟩ := (Option.any_eq_true ..).mp executed
  obtain ⟨queue, full, small⟩ := of_decide_eq_true ended
  have unfit : Unfit next 0 longPath := ⟨by rw [queue]; rfl, full, small⟩
  have endless := endless_of_unfit (starts_of_step taken initial (.inl ⟨_, _, rfl⟩))
    (reachable_step initial trivial taken) unfit
  refine ⟨next, taken, queue, fun gets => ?_, endless⟩
  obtain ⟨choices, final, steps, many⟩ := endless 2
  have few := (gets choices final steps).2.1
  rw [queue] at few
  exact absurd (Nat.le_trans many few) (by decide)

end State

end CephGeoRep
