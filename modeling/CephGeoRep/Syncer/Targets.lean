import CephGeoRep.Syncer.Accounting

/-!
# The targets of the kill loop

`pid_` outlives the child: a process that is parked keeps the pid of a child that
`wait` has returned. `running` lists the children that are still there with the process
each was forked for, and `Holding` says what ties it to the stored pids. A report of E2BIG
makes a target of every stored pid, which is right exactly when no process is parked.
-/

namespace CephGeoRep

open Semantics

/-- The pid of a child that has not been reaped, and the process it was forked for. -/
def Child.holder (child : Child) : Option (Nat × Nat) :=
  if child.outstanding then some (child.pid, child.proc) else none

namespace State

/-- The children that have not been reaped. -/
def running (state : State) : List (Nat × Nat) := state.children.filterMap Child.holder

/-- `wait` returns a child that tells its process of E2BIG. -/
def reportsTooBig (state : State) (index : Nat) : Bool :=
  match state.children[index]? with
  | some child =>
    match child.phase with
    | .zombie status =>
      match state.procs.find? fun process => process.pid == child.pid with
      | some process =>
        wexitstatus status.encode == checkShmem &&
          (state.reap index child status).execError process == some e2big
      | none => false
    | _ => false
  | none => false

end State

/-- No process is parked when E2BIG is reported, and `fork` returns no pid that a parked
process still stores. -/
def noneParked (state : State) : Choice → Prop
  | .fork pid => ∀ process ∈ state.procs, process.id ∈ state.sshFailProcs → process.pid ≠ pid
  | .wait index _ => state.reportsTooBig index = true → state.sshFailProcs = []
  | _ => True

instance (state : State) : ∀ choice, Decidable (noneParked state choice)
  | .fork pid => inferInstanceAs (Decidable
      (∀ process ∈ state.procs, process.id ∈ state.sshFailProcs → process.pid ≠ pid))
  | .wait index _ => inferInstanceAs
      (Decidable (state.reportsTooBig index = true → state.sshFailProcs = []))
  | .sync .. | .forkFails | .noChildren | .kill | .afterRound | .deleteSnap _ | .child ..
  | .signal .. => .isTrue trivial

namespace State

variable {capacity : Nat} {state next : State} {choice : Choice} {loop : List Nat → Control}
  {todo childless others : List Nat} {process : SyncProcess} {index : Nat} {child : Child}
  {status : WaitStatus}

/-! ## Running children -/

theorem mem_running {pid : Nat} : pid ∈ state.running.map Prod.fst ↔
    ∃ child ∈ state.children, child.outstanding = true ∧ child.pid = pid := by
  simp only [running, List.mem_map, List.mem_filterMap, Child.holder, Option.ite_none_right_eq_some,
    Option.some.injEq]
  constructor
  · rintro ⟨_, ⟨child, member, held, rfl⟩, rfl⟩
    exact ⟨child, member, held, rfl⟩
  · rintro ⟨child, member, held, rfl⟩
    exact ⟨_, ⟨child, member, held, rfl⟩, rfl⟩

theorem holder_of_continues {before after : Child} (continues : before.Continues after) :
    after.holder = before.holder := by
  rw [Child.holder, Child.holder, continues.outstanding, continues.pid, continues.proc]

/-- Replacing a child by its continuation leaves the running ones alone. -/
theorem running_set {children : List Child} {after : Child}
    (found : children[index]? = some child) (continues : child.Continues after) :
    (children.set index after).filterMap Child.holder = children.filterMap Child.holder := by
  obtain ⟨bound, rfl⟩ := List.getElem?_eq_some_iff.mp found
  rw [List.set_eq_take_append_cons_drop, if_pos bound, List.filterMap_append, List.filterMap_cons,
    holder_of_continues continues, ← List.filterMap_cons, ← List.filterMap_append]
  simp

theorem running_sendSigint {pid : Nat} {children : List Child} :
    (children.map (sendSigint pid)).filterMap Child.holder = children.filterMap Child.holder := by
  rw [List.filterMap_map]
  apply List.filterMap_congr
  intro child _
  exact holder_of_continues (continues_sendSigint child)

/-- A `wait` takes one child out of the running ones. -/
theorem running_reap (found : state.children[index]? = some child)
    (ended : child.phase = .zombie status) :
    state.running.Perm ((child.pid, child.proc) :: (state.reap index child status).running) := by
  obtain ⟨bound, equal⟩ := List.getElem?_eq_some_iff.mp found
  have held : child.holder = some (child.pid, child.proc) := by
    rw [Child.holder, outstanding_of_zombie ended, if_pos rfl]
  have gone : ({ child with phase := .reaped status } : Child).holder = none := rfl
  have before : state.children =
      state.children.take index ++ child :: state.children.drop (index + 1) := by
    rw [← equal]
    simp
  have after : (state.reap index child status).running =
      (state.children.take index).filterMap Child.holder ++
        (state.children.drop (index + 1)).filterMap Child.holder := by
    rw [running, State.reap, List.set_eq_take_append_cons_drop, if_pos bound,
      List.filterMap_append, List.filterMap_cons_none gone]
  rw [after, running]
  nth_rewrite 1 [before]
  rw [List.filterMap_append, List.filterMap_cons_some held]
  exact List.perm_middle

/-! ## The stored pids -/

/-- The pids of the processes outside `childless` are those of running children; the pid
of a parked process is the one of a child that is gone. -/
structure Holding (state : State) (childless : List Nat) : Prop where
  once : childless.Nodup
  listed : ∀ id ∈ childless, ∃ process ∈ state.procs, process.id = id
  owner : ∀ process ∈ state.procs, process.id ∉ childless →
    (process.pid, process.id) ∈ state.running
  apart : (0 :: state.running.map Prod.fst).Nodup
  parked : ∀ process ∈ state.procs, process.id ∈ state.sshFailProcs →
    process.pid ∉ 0 :: state.running.map Prod.fst

/-- Only the processes, the parked ones and the running children matter. -/
theorem Holding.congr (held : state.Holding childless) (procs : next.procs = state.procs)
    (parked : next.sshFailProcs = state.sshFailProcs) (running : next.running = state.running) :
    next.Holding childless where
  once := held.once
  listed := procs ▸ held.listed
  owner := by
    rw [procs, running]
    exact held.owner
  apart := running ▸ held.apart
  parked := by
    rw [procs, parked, running]
    exact held.parked

theorem held_startRound (none : state.outstanding = []) (nproc : Nat) (pos : 0 < nproc) :
    (state.startRound nproc pos).Holding (List.range nproc) where
  once := List.nodup_range
  listed id member := ⟨SyncProcess.new state.syncer nproc pos id, List.mem_map_of_mem member, rfl⟩
  owner process member absent := by
    simp only [startRound, List.mem_map] at member
    obtain ⟨id, below, rfl⟩ := member
    exact absurd below absent
  apart := by
    have empty : (state.startRound nproc pos).running = [] := by
      simp [running, startRound, none]
    rw [empty]
    exact List.nodup_singleton 0
  parked _ _ member := by cases member

/-- Starting a childless process whose pid is new. -/
theorem Holding.start {id pid : Nat} {formed : List (Nat × List Nat)}
    (held : state.Holding (id :: others)) (inside : ∀ parked ∈ state.sshFailProcs, parked ∈ others)
    (same : process.id = id) (new : pid ∉ 0 :: state.running.map Prod.fst)
    (apart : ∀ other ∈ state.procs, other.id ∈ state.sshFailProcs → other.pid ≠ pid)
    (destination : CString) :
    Holding { state.setProc (process.started pid state.children.length) with
      children := state.children ++ [Child.fork process pid destination]
      formed := formed } others := by
  have running : running { state.setProc (process.started pid state.children.length) with
      children := state.children ++ [Child.fork process pid destination]
      formed := formed } = state.running ++ [(pid, id)] := by
    rw [← same]
    exact List.filterMap_append
  refine ⟨(List.nodup_cons.mp held.once).2, ?_, ?_, ?_, ?_⟩
  · intro other member
    obtain ⟨old, listed, rfl⟩ := held.listed other (List.mem_cons_of_mem _ member)
    have differs : old.id ≠ id := fun equal => (List.nodup_cons.mp held.once).1 (equal ▸ member)
    exact ⟨old, mem_setProc.mpr (.inr ⟨listed, fun equal => differs (equal.trans same)⟩), rfl⟩
  · intro other member absent
    rw [running, List.mem_append]
    rcases mem_setProc.mp member with ⟨rfl, _⟩ | ⟨old, differs⟩
    · right
      rw [← same]
      exact List.mem_singleton_self _
    · left
      apply held.owner other old
      rw [List.mem_cons, not_or]
      exact ⟨fun equal => differs (equal.trans same.symm), absent⟩
  · rw [running, List.map_append, ← List.cons_append]
    refine List.nodup_append.mpr ⟨held.apart, List.nodup_singleton _, ?_⟩
    rintro old member _ last rfl
    have equal : old = pid := List.mem_singleton.mp last
    exact new (equal ▸ member)
  · intro other member parked
    rw [running, List.map_append, ← List.cons_append, List.mem_append, not_or]
    rcases mem_setProc.mp member with ⟨rfl, _⟩ | ⟨old, _⟩
    · exact absurd (inside _ parked) (same ▸ (List.nodup_cons.mp held.once).1)
    · refine ⟨held.parked other old parked, fun last => ?_⟩
      exact apart other old parked (List.mem_singleton.mp last)

/-- The process that `find_if` finds is the one the child was forked for. -/
theorem Holding.owner_of_pid (held : state.Holding state.sshFailProcs)
    (found : state.children[index]? = some child) (ended : child.phase = .zombie status)
    (member : process ∈ state.procs) (pid : process.pid = child.pid) :
    child.proc = process.id ∧ process.id ∉ state.sshFailProcs := by
  have perm := running_reap found ended
  have runs : (child.pid, child.proc) ∈ state.running := perm.mem_iff.mpr List.mem_cons_self
  have absent : process.id ∉ state.sshFailProcs := by
    intro parked
    apply held.parked process member parked
    rw [pid]
    exact List.mem_cons_of_mem _ (List.mem_map_of_mem runs)
  have owned := held.owner process member absent
  have distinct := (List.nodup_cons.mp held.apart).2
  have same := List.inj_on_of_nodup_map distinct runs owned pid.symm
  exact ⟨congrArg Prod.snd same, absent⟩

/-- What is left running when a child has been reaped. -/
theorem Holding.gone (held : state.Holding childless) (found : state.children[index]? = some child)
    (ended : child.phase = .zombie status) :
    (0 :: (state.reap index child status).running.map Prod.fst).Nodup ∧
      child.pid ∉ 0 :: (state.reap index child status).running.map Prod.fst ∧
      ∀ pid, pid ∉ 0 :: state.running.map Prod.fst →
        pid ∉ 0 :: (state.reap index child status).running.map Prod.fst := by
  have perm : (0 :: state.running.map Prod.fst).Perm
      (child.pid :: 0 :: (state.reap index child status).running.map Prod.fst) :=
    (((running_reap found ended).map Prod.fst).cons 0).trans (.swap ..)
  obtain ⟨fresh, apart⟩ := List.nodup_cons.mp (perm.nodup_iff.mp held.apart)
  exact ⟨apart, fresh, fun pid absent inside =>
    absent (perm.mem_iff.mpr (List.mem_cons_of_mem _ inside))⟩

/-- Reaping the child of a process makes the process childless. -/
theorem Holding.reap (held : state.Holding state.sshFailProcs)
    (found : state.children[index]? = some child) (ended : child.phase = .zombie status)
    (member : process ∈ state.procs) (pid : process.pid = child.pid) :
    (state.reap index child status).Holding (process.id :: state.sshFailProcs) := by
  obtain ⟨owned, absent⟩ := held.owner_of_pid found ended member pid
  obtain ⟨apart, _, keeps⟩ := held.gone found ended
  refine ⟨List.nodup_cons.mpr ⟨absent, held.once⟩, ?_, ?_, apart, ?_⟩
  · intro id inside
    rcases List.mem_cons.mp inside with rfl | inside
    · exact ⟨process, member, rfl⟩
    · exact held.listed id inside
  · intro other listed absent'
    rw [List.mem_cons, not_or] at absent'
    have runs := (running_reap found ended).mem_iff.mp (held.owner other listed absent'.2)
    rcases List.mem_cons.mp runs with equal | runs
    · exact absurd ((congrArg Prod.snd equal).trans owned) absent'.1
    · exact runs
  · intro other listed parked
    exact keeps _ (held.parked other listed parked)

/-- Reaping a child that no process holds. -/
theorem Holding.stray (held : state.Holding childless) (found : state.children[index]? = some child)
    (ended : child.phase = .zombie status)
    (unknown : ∀ process ∈ state.procs, process.pid ≠ child.pid) :
    (state.reap index child status).Holding childless := by
  obtain ⟨apart, _, keeps⟩ := held.gone found ended
  refine ⟨held.once, held.listed, ?_, apart, ?_⟩
  · intro other listed absent
    have runs := (running_reap found ended).mem_iff.mp (held.owner other listed absent)
    rcases List.mem_cons.mp runs with equal | runs
    · exact absurd (congrArg Prod.fst equal) (unknown other listed)
    · exact runs
  · intro other listed parked
    exact keeps _ (held.parked other listed parked)

/-- Going on with a loop. -/
theorem Holding.continueWith (isLoop : IsLoop loop)
    (held : state.Holding (todo ++ state.sshFailProcs)) :
    (state.continueWith loop todo).Holding (state.continueWith loop todo).childless := by
  rcases childless_continueWith state todo isLoop with equal | ⟨gone, _, none⟩
  · rw [equal]
    exact held.congr rfl rfl rfl
  · rw [none]
    refine ⟨List.nodup_nil, ?_, ?_, held.apart, held.parked⟩
    · intro id member
      cases member
    · intro process member
      simp [State.continueWith, gone] at member

/-- A childless process leaves, or changes without changing its pid, and nothing is
parked. -/
theorem Holding.unpark (held : state.Holding (process.id :: others)) (procs : List SyncProcess)
    (formed retired : List (Nat × List Nat)) (childless : List Nat)
    (once : childless.Nodup) (listed : ∀ id ∈ childless, ∃ process ∈ procs, process.id = id)
    (origin : ∀ other ∈ procs, other.id ∉ childless →
      other ∈ state.procs ∧ other.id ∉ process.id :: others) :
    Holding { state with
      procs := procs, sshFailProcs := [], formed := formed, retired := retired } childless where
  once := once
  listed := listed
  owner other member absent := by
    obtain ⟨old, absent'⟩ := origin other member absent
    exact held.owner other old absent'
  apart := held.apart
  parked _ _ member := by cases member

/-- The body of the wait loop keeps the pids as long as the round lasts. -/
theorem Holding.handled {exitCode : Nat} (held : state.Holding (process.id :: state.sshFailProcs))
    (distinct : (state.procs.map SyncProcess.id).Nodup) (member : process ∈ state.procs)
    (gone : process.pid ∉ 0 :: state.running.map Prod.fst)
    (handled : Handled state process exitCode next) (inRound : next.control.inRound = true) :
    next.Holding next.childless := by
  have once := List.nodup_cons.mp held.once
  cases handled with
  | finished _ _ =>
      apply Holding.continueWith relaunching_isLoop
      show Holding _ (state.sshFailProcs ++ [])
      rw [List.append_nil]
      refine held.unpark _ _ _ _ once.2 ?_ ?_
      · intro id parked
        obtain ⟨old, listed, rfl⟩ := held.listed id (List.mem_cons_of_mem _ parked)
        refine ⟨old, (mem_eraseProc distinct).mpr ⟨listed, fun equal => ?_⟩, rfl⟩
        exact once.1 (equal ▸ parked)
      · intro other inside absent
        obtain ⟨listed, differs⟩ := (mem_eraseProc distinct).mp inside
        exact ⟨listed, fun inside => (List.mem_cons.mp inside).elim differs absent⟩
  | more _ _ =>
      apply Holding.continueWith relaunching_isLoop
      show Holding _ (process.id :: state.sshFailProcs ++ [])
      rw [List.append_nil]
      have same : (process.reset.consume state.queue state.destination).id = process.id := by simp
      refine held.unpark _ _ _ _ held.once ?_ ?_
      · intro id inside
        obtain ⟨old, listed, rfl⟩ := held.listed id inside
        by_cases equal : old.id = process.id
        · exact ⟨_, mem_setProc.mpr (.inl ⟨rfl, old, listed, equal.trans same.symm⟩),
            same.trans equal.symm⟩
        · exact ⟨old, mem_setProc.mpr (.inr ⟨listed, fun back => equal (back.trans same)⟩), rfl⟩
      · intro other inside absent
        rcases mem_setProc.mp inside with ⟨rfl, _⟩ | ⟨listed, _⟩
        · exact absurd (same ▸ List.mem_cons_self) absent
        · exact ⟨listed, absent⟩
  | retry _ _ => exact held.congr rfl rfl rfl
  | park _ _ =>
      show Holding _ ([] ++ (state.sshFailProcs ++ [process.id]))
      have perm : (state.sshFailProcs ++ [process.id]).Perm (process.id :: state.sshFailProcs) :=
        List.perm_append_singleton ..
      rw [List.nil_append]
      refine ⟨perm.nodup_iff.mpr held.once, ?_, ?_, held.apart, ?_⟩
      · intro id inside
        exact held.listed id (perm.mem_iff.mp inside)
      · intro other listed absent
        exact held.owner other listed fun inside => absent (perm.mem_iff.mpr inside)
      · intro other listed parked
        rcases List.mem_append.mp parked with earlier | last
        · exact held.parked other listed earlier
        · rw [List.inj_on_of_nodup_map distinct listed member (List.mem_singleton.mp last)]
          exact gone
  | failOver _ _ =>
      show Holding _ (state.procs.map SyncProcess.id ++ [])
      rw [List.append_nil]
      refine ⟨distinct, ?_, ?_, held.apart, fun _ _ parked => by cases parked⟩
      · intro id inside
        obtain ⟨old, listed, rfl⟩ := List.mem_map.mp inside
        exact ⟨old, listed, rfl⟩
      · intro other listed absent
        exact absurd (List.mem_map_of_mem listed) absent
  | tooBig | fail => cases inRound

/-- Starting the process at the head of a loop. -/
theorem Holding.launch {id pid : Nat} (held : state.Holding state.childless) (isLoop : IsLoop loop)
    (control : state.control = loop (id :: todo)) (same : process.id = id)
    (forkable : state.forkable pid = true) (allowed : noneParked state (.fork pid))
    (formed : List (Nat × List Nat)) :
    (State.continueWith { state.setProc (process.started pid state.children.length) with
      children := state.children ++ [Child.fork process pid state.destination]
      formed := formed } loop todo).Holding
        (State.continueWith { state.setProc (process.started pid state.children.length) with
          children := state.children ++ [Child.fork process pid state.destination]
          formed := formed } loop todo).childless := by
  apply Holding.continueWith isLoop
  rw [childless_of_loop isLoop control, List.cons_append] at held
  have new : pid ∉ 0 :: state.running.map Prod.fst := by
    simp only [State.forkable, Bool.and_eq_true, bne_iff_ne, List.all_eq_true] at forkable
    rw [List.mem_cons, not_or, mem_running]
    refine ⟨forkable.1, ?_⟩
    rintro ⟨child, member, outstanding, equal⟩
    exact forkable.2 child (List.mem_filter.mpr ⟨member, outstanding⟩) equal
  exact held.start (fun parked member => List.mem_append_right _ member) same new allowed
    state.destination

/-! ## The kill loop -/

/-- The pids are kept while a round lasts, and those still to be killed are running. -/
structure Targeted (state : State) : Prop where
  held : state.control.inRound = true → state.Holding state.childless
  targets : ∀ todo, state.control = .killing todo → ∀ pid ∈ todo,
    pid ∈ state.running.map Prod.fst

theorem targeted_of_elsewhere (outside : next.control.inRound = false)
    (other : ∀ todo, next.control ≠ .killing todo) : next.Targeted where
  held inRound := by
    rw [outside] at inRound
    cases inRound
  targets todo killing := absurd killing (other todo)

theorem targeted_of_held (held : next.Holding next.childless)
    (other : ∀ todo, next.control ≠ .killing todo) : next.Targeted where
  held _ := held
  targets todo killing := absurd killing (other todo)

/-- A new round holds no pids yet. -/
theorem targeted_startRound (none : state.outstanding = []) (nproc : Nat) (pos : 0 < nproc) :
    (state.startRound nproc pos).Targeted := by
  refine targeted_of_held ?_ (by simp [startRound])
  have childless : (state.startRound nproc pos).childless = List.range nproc := by
    simp [State.childless, startRound, Control.inRound, Control.todo]
  rw [childless]
  exact held_startRound none nproc pos

/-- The same processes, with the same children running. -/
theorem Targeted.carry (targeted : state.Targeted) {children : List Child}
    (same : children.filterMap Child.holder = state.running) (snapshot : Bool) :
    Targeted { state with children := children, snapshot := snapshot } where
  held inRound := (targeted.held inRound).congr rfl rfl same
  targets todo killing pid member := by
    have runs := targeted.targets todo killing pid member
    rwa [← same] at runs

theorem continueWith_not_killing (isLoop : IsLoop loop) (targets : List Nat) :
    (state.continueWith loop todo).control ≠ .killing targets := by
  apply holds_continueWith fun control => control ≠ .killing targets
  · rcases isLoop with rfl | rfl | rfl <;> simp
  · simp
  · simp

/-- What E2BIG makes a target. -/
def targets (state : State) (process : SyncProcess) : List Nat :=
  (state.procs.filter fun other => other.pid ≠ 0 && other.pid ≠ process.pid).map SyncProcess.pid

theorem mem_targets {pid : Nat} : pid ∈ state.targets process ↔
    ∃ other ∈ state.procs, other.pid = pid ∧ pid ≠ 0 ∧ pid ≠ process.pid := by
  simp only [targets, List.mem_map, List.mem_filter, Bool.and_eq_true, decide_eq_true_eq]
  constructor
  · rintro ⟨other, ⟨listed, nonzero, differs⟩, rfl⟩
    exact ⟨other, listed, rfl, nonzero, differs⟩
  · rintro ⟨other, listed, rfl, nonzero, differs⟩
    exact ⟨other, ⟨listed, nonzero, differs⟩, rfl⟩

/-- Every target is running exactly when no process is parked. -/
theorem Holding.targets_iff (held : state.Holding (process.id :: state.sshFailProcs))
    (distinct : (state.procs.map SyncProcess.id).Nodup) (member : process ∈ state.procs)
    (parkedPid : ∀ other ∈ state.procs, other.id ∈ state.sshFailProcs → other.pid ≠ process.pid) :
    (∀ pid ∈ state.targets process, pid ∈ state.running.map Prod.fst) ↔
      state.sshFailProcs = [] := by
  constructor
  · intro runs
    by_contra some
    obtain ⟨id, parked⟩ := List.exists_mem_of_ne_nil _ some
    obtain ⟨other, listed, rfl⟩ := held.listed id (List.mem_cons_of_mem _ parked)
    have stale := held.parked other listed parked
    rw [List.mem_cons, not_or] at stale
    have target := mem_targets.mpr ⟨other, listed, rfl, stale.1, parkedPid other listed parked⟩
    exact stale.2 (runs _ target)
  · intro none pid target
    obtain ⟨other, listed, rfl, _, differs⟩ := mem_targets.mp target
    rw [none] at held
    have absent : other.id ∉ [process.id] := by
      intro inside
      apply differs
      rw [List.inj_on_of_nodup_map distinct listed member (List.mem_singleton.mp inside)]
    exact List.mem_map_of_mem (held.owner other listed absent)

/-- The wait that restarts the round, and what it makes a target. -/
theorem tooBig_of_wait {logOpens : Bool}
    (taken : state.step capacity (.wait index logOpens) = some next)
    (killing : next.control = .killing todo) :
    state.control = .waiting ∧ state.reportsTooBig index = true ∧
      ∃ child status process, state.children[index]? = some child ∧
        child.phase = .zombie status ∧ process ∈ state.procs ∧ process.pid = child.pid ∧
        next = { state.reap index child status with
          control := .killing (state.targets process) } := by
  cases moves_of_step taken with
  | stray waiting | reap waiting => simp [State.reap, waiting] at killing
  | @returned _ child status _ process _ waiting found ended owner handled =>
      have member := List.mem_of_find?_eq_some owner
      have pid : process.pid = child.pid := by simpa using List.find?_some owner
      cases handled with
      | tooBig nonzero code error =>
          refine ⟨waiting, ?_, child, status, process, found, ended, member, pid, rfl⟩
          simp [reportsTooBig, found, ended, owner, code, error]
      | finished | more =>
          exact absurd killing (continueWith_not_killing relaunching_isLoop _)
      | fail | retry | park | failOver => simp [tryNextDestination, failRound] at killing

/-- A report of E2BIG makes targets of running children only exactly when no process is
parked. -/
theorem Targeted.targets_iff {logOpens : Bool} (targeted : state.Targeted)
    (accounted : state.Accounted) (taken : state.step capacity (.wait index logOpens) = some next)
    (killing : next.control = .killing todo) :
    (∀ pid ∈ todo, pid ∈ next.running.map Prod.fst) ↔ state.sshFailProcs = [] := by
  obtain ⟨waiting, _, child, status, process, found, ended, member, pid, rfl⟩ :=
    tooBig_of_wait taken killing
  have held := targeted.held (by rw [waiting]; rfl)
  rw [childless_of_waiting waiting] at held
  obtain rfl : state.targets process = todo := Control.killing.inj killing
  refine (held.reap found ended member pid).targets_iff accounted.distinct member ?_
  intro other listed parked same
  -- the child that was returned still ran, and that of a parked process does not
  apply held.parked other listed parked
  rw [same, pid]
  exact List.mem_cons_of_mem _ (mem_running.mpr
    ⟨child, List.mem_of_getElem? found, outstanding_of_zombie ended, rfl⟩)

/-- Every transition keeps the targets running. -/
theorem Targeted.of_step (targeted : state.Targeted) (accounted : state.Accounted)
    (allowed : noneParked state choice) (taken : state.step capacity choice = some next) :
    next.Targeted := by
  cases moves_of_step taken with
  | sync idle _ _ =>
      rw [launchProcs]
      apply targeted_startRound
      exact accounted.outstanding_eq_nil (by rw [idle]; rfl)
  | newRound returned room =>
      rw [launchProcs]
      apply targeted_startRound
      exact accounted.outstanding_eq_nil (by rw [returned]; rfl)
  | launch control found forkable =>
      obtain ⟨_, same⟩ := proc?_eq_some found
      have held := targeted.held (by rw [control]; rfl)
      refine targeted_of_held ?_ (continueWith_not_killing launching_isLoop)
      rw [launch_eq]
      exact held.launch launching_isLoop control (by simpa using same) forkable allowed _
  | relaunch control found forkable =>
      obtain ⟨_, same⟩ := proc?_eq_some found
      have held := targeted.held (by rw [control]; rfl)
      refine targeted_of_held ?_ (continueWith_not_killing relaunching_isLoop)
      exact held.launch relaunching_isLoop control same forkable allowed state.formed
  | failOver control found forkable =>
      obtain ⟨_, same⟩ := proc?_eq_some found
      have held := targeted.held (by rw [control]; rfl)
      refine targeted_of_held ?_ (continueWith_not_killing failingOver_isLoop)
      exact held.launch failingOver_isLoop control (by simpa using same) forkable allowed
        state.formed
  | stray waiting found ended unknown =>
      have held := targeted.held (by rw [waiting]; rfl)
      refine targeted_of_held ?_ (by simp [State.reap, waiting])
      exact held.stray found ended unknown
  | @returned index child status _ process _ waiting found ended owner handled =>
      have member := List.mem_of_find?_eq_some owner
      have pid : process.pid = child.pid := by simpa using List.find?_some owner
      have held := targeted.held (by rw [waiting]; rfl)
      rw [childless_of_waiting waiting] at held
      have reaped := held.reap found ended member pid
      obtain ⟨_, gone, _⟩ := held.gone found ended
      rw [← pid] at gone
      refine ⟨reaped.handled accounted.distinct member gone handled, fun todo killing => ?_⟩
      obtain ⟨_, reports, _⟩ := tooBig_of_wait taken killing
      exact (targeted.targets_iff accounted taken killing).mpr (allowed reports)
  | reap reaping found ended =>
      exact targeted_of_elsewhere (by simp [State.reap, reaping, Control.inRound])
        (by simp [State.reap, reaping])
  | kill killing =>
      refine ⟨fun inRound => absurd inRound Bool.false_ne_true, fun todo same pid member => ?_⟩
      cases same
      have runs := targeted.targets _ killing pid (List.mem_cons_of_mem _ member)
      rw [running] at runs ⊢
      rwa [running_sendSigint]
  | child found moved =>
      exact targeted.carry (running_set found (Child.continues_of_step moved)) _
  | signal found live =>
      exact targeted.carry (running_set found (Child.continues_of_signal live _)) state.snapshot
  | _ => exact targeted_of_elsewhere rfl (by simp [exitFailure, failRound])

/-- The targets run in all runs in which nothing is parked when E2BIG is reported. -/
theorem targeted_invariant : (syncMachine capacity).Invariant noneParked Targeted where
  initial := by
    rintro state ⟨tokenize, argMax, envpSize, config, rfl⟩
    exact targeted_of_elsewhere rfl (by simp [State.start])
  preserved _ _ _ reachable targeted allowed taken :=
    targeted.of_step (accounted_invariant.of_reachable reachable) allowed taken

/-- In the runs in which nothing is parked when E2BIG is reported, and no pid of a parked
process is used again, each pid that is still to be killed is that of a child that `wait`
has not returned. A report while something is parked leads to a pid of no such child. -/
theorem targets_of_reachable (reachable : (syncMachine capacity).Reachable noneParked state) :
    (∀ todo, state.control = .killing todo → ∀ pid ∈ todo,
      ∃ child ∈ state.children, child.outstanding = true ∧ child.pid = pid) ∧
    ∀ index logOpens next todo, state.step capacity (.wait index logOpens) = some next →
      next.control = .killing todo →
      ((∀ pid ∈ todo, ∃ child ∈ next.children, child.outstanding = true ∧ child.pid = pid) ↔
        state.sshFailProcs = []) := by
  have targeted := targeted_invariant.of_reachable reachable
  have accounted := accounted_invariant.of_reachable reachable
  constructor
  · intro todo killing pid member
    exact mem_running.mp (targeted.targets todo killing pid member)
  · intro index logOpens next todo taken killing
    rw [← targeted.targets_iff accounted taken killing]
    constructor
    · intro run pid member
      exact mem_running.mpr (run pid member)
    · intro run pid member
      exact mem_running.mp (run pid member)

/-- Three processes; the child of the first fails with `code`, and `execvp` fails with
E2BIG for that of the second. -/
def reportRun (code : Nat) : List Choice :=
  let files := [plainFile "/s/./a".toList 1, plainFile "/s/./b".toList 2,
    plainFile "/s/./c".toList 3]
  [.sync files files, .fork 11, .fork 12, .fork 13] ++ childExits 0 code ++
    ([.wait 0 true] : List Choice) ++
    (if code = sshFail then [] else ([.fork 14] : List Choice)) ++
    ([.child 1 .resetSigint, .child 1 (.execFail e2big), .child 1 .leave, .wait 1 true] :
      List Choice)

/-- The first process tries its batch again, so its new child is a target. -/
theorem targets_of_reportRun : ∃ state : State, state.control = .killing [14, 13] ∧
    ∀ pid ∈ [14, 13], ∃ child ∈ state.children, child.outstanding = true ∧ child.pid = pid := by
  have executed : ((syncMachine 4).run noneParked (rsyncDaemon 3 "a:b".toList)
      (reportRun partialXfr)).any (fun state => decide (state.control = .killing [14, 13])) =
        true := by
    decide +kernel
  obtain ⟨state, reachable, ended⟩ := Machine.exists_of_run (rsyncDaemon_initial 3 _) executed
  have killing := of_decide_eq_true ended
  exact ⟨state, killing, (targets_of_reachable reachable).1 _ killing⟩

/-- The first process is parked: SIGINT goes to pid 11, whose child has been reaped. -/
theorem reaped_of_reportRun : ∃ state : State,
    (syncMachine 4).Reachable Machine.unguarded state ∧ state.control = .killing [11, 13] ∧
    ∀ child ∈ state.children, child.pid = 11 → child.outstanding = false := by
  have executed : ((syncMachine 4).run Machine.unguarded (rsyncDaemon 3 "a:b".toList)
      (reportRun sshFail)).any (fun state => decide (state.control = .killing [11, 13] ∧
        ∀ child ∈ state.children, child.pid = 11 → child.outstanding = false)) = true := by
    decide +kernel
  obtain ⟨state, reachable, ended⟩ := Machine.exists_of_run (rsyncDaemon_initial 3 _) executed
  exact ⟨state, reachable, of_decide_eq_true ended⟩

end State

end CephGeoRep
