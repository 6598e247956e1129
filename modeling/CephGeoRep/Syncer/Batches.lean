import CephGeoRep.Support.Striding
import CephGeoRep.Syncer.Payload

/-!
# The batches of a round

A round is a run of striding workers: the process objects are the workers,
`consume` cuts a batch, the exit-code-0 branch retires it and `procs.erase` lets
the worker leave. Relaunches move nothing, so whatever the children do, the
batches of a round partition the part of the queue that has been visited.
-/

namespace CephGeoRep

open Semantics Support

/-- In the part of a round in which the processes hold its batches, or behind a
round that succeeded. -/
def Control.tracked : Control → Bool
  | .launching _ | .relaunching _ | .failingOver _ | .waiting => true
  | .returned .syncSuccess | .synced => true
  | _ => false

namespace State

/-- The process objects as striding workers. -/
def work (state : State) : Work where
  next id := (state.proc? id).map SyncProcess.fileItr
  held id :=
    if id ∈ state.control.unloaded then none else (state.proc? id).map SyncProcess.batch
  formed := state.formed
  retired := state.retired

/-- A step that stays in a round moves its workers. -/
structure Works (state next : State) : Prop where
  queue : next.queue = state.queue
  count : next.numSshFailsToInc = state.numSshFailsToInc
  strides : ∀ process ∈ next.procs, process.inc = next.numSshFailsToInc
  moves : Relation.ReflTransGen
    (Work.Moves state.queue.length state.numSshFailsToInc) state.work next.work

variable {capacity : Nat} {state next : State} {loop : List Nat → Control} {todo : List Nat}
  {process old : SyncProcess} {id : Nat}

/-- The processes are unchanged, and so is which of them hold a batch. -/
theorem work_congr (procs : next.procs = state.procs)
    (unloaded : next.control.unloaded = state.control.unloaded)
    (formed : next.formed = state.formed) (retired : next.retired = state.retired) :
    next.work = state.work := by
  unfold work proc?
  rw [procs, unloaded, formed, retired]

/-- Nothing a worker is made of changed. -/
theorem Works.of_congr (strides : ∀ process ∈ state.procs,
      process.inc = state.numSshFailsToInc)
    (queue : next.queue = state.queue)
    (count : next.numSshFailsToInc = state.numSshFailsToInc) (procs : next.procs = state.procs)
    (unloaded : next.control.unloaded = state.control.unloaded)
    (formed : next.formed = state.formed) (retired : next.retired = state.retired) :
    Works state next where
  queue := queue
  count := count
  strides := by
    rw [procs, count]
    exact strides
  moves := by rw [work_congr procs unloaded formed retired]

/-- Writing back a process that strides the same way. -/
theorem strides_setProc (strides : ∀ process ∈ state.procs,
      process.inc = state.numSshFailsToInc) (same : process.inc = state.numSshFailsToInc) :
    ∀ other ∈ (state.setProc process).procs, other.inc = state.numSshFailsToInc := by
  intro other member
  rcases mem_setProc.mp member with ⟨rfl, _⟩ | ⟨earlier, _⟩
  · exact same
  · exact strides other earlier

/-- A process that is started again keeps its place and its batch. -/
theorem works_relaunch (process : SyncProcess)
    (distinct : (state.procs.map SyncProcess.id).Nodup)
    (strides : ∀ process ∈ state.procs, process.inc = state.numSshFailsToInc)
    (isLoop : IsLoop loop) (control : state.control = loop (id :: todo))
    (loaded : ∀ todo, (loop todo).unloaded = [])
    (found : state.proc? id = some old) (same : process.id = old.id)
    (inc : process.inc = old.inc) (fileItr : process.fileItr = old.fileItr)
    (batch : process.batch = old.batch) (children : List Child) :
    Works state (continueWith { state.setProc process with children := children }
      loop todo) where
  queue := rfl
  count := rfl
  strides := strides_setProc strides (inc.trans (strides old (proc?_eq_some found).1))
  moves := by
    obtain ⟨member, renamed⟩ := proc?_eq_some found
    have lookup := proc?_setProc distinct ⟨old, member, same.symm⟩
    rw [same, renamed] at lookup
    have equal : (continueWith { state.setProc process with children := children }
        loop todo).work = state.work := by
      unfold work
      rw [unloaded_continueWith _ isLoop, loaded, control, loaded]
      congr 1
      · funext other
        refine (congrArg _ (lookup other)).trans ?_
        by_cases here : other = id
        · rw [if_pos here, here, found, Option.map_some, Option.map_some, fileItr]
        · rw [if_neg here]
      · funext other
        refine (congrArg _ (congrArg _ (lookup other))).trans ?_
        by_cases here : other = id
        · rw [if_pos here, here, found, Option.map_some, Option.map_some, batch]
        · rw [if_neg here]
    rw [equal]

/-- Writing back a process with a new batch is the forming of that batch. -/
theorem work_form (state next : State) {start count step : Nat}
    (lookup : ∀ other, next.proc? other =
      if other = id then some process else state.proc? other)
    (loaded : id ∉ next.control.unloaded)
    (others : ∀ other, other ≠ id →
      (other ∈ next.control.unloaded ↔ other ∈ state.control.unloaded))
    (fileItr : process.fileItr = start + count * step)
    (batch : process.batch = stride start step count)
    (formed : next.formed = state.formed ++ [(id, process.batch)]) :
    next.work = { state.work.form step id start count with retired := next.retired } := by
  refine Work.ext ?_ ?_ ?_ rfl
  · ext1 other
    show (next.proc? other).map SyncProcess.fileItr =
      Function.update state.work.next id (some (start + count * step)) other
    by_cases here : other = id
    · rw [lookup, if_pos here, here, Function.update_self, Option.map_some, fileItr]
    · rw [lookup, if_neg here, Function.update_of_ne here]
      rfl
  · ext1 other
    show (if other ∈ next.control.unloaded then none
        else (next.proc? other).map SyncProcess.batch) =
      Function.update state.work.held id (some (stride start step count)) other
    by_cases here : other = id
    · rw [lookup, if_pos here, here, Function.update_self, if_neg loaded, Option.map_some,
        batch]
    · rw [lookup, if_neg here, Function.update_of_ne here]
      simp only [others other here]
      rfl
  · show next.formed = state.formed ++ [(id, stride start step count)]
    rw [formed, batch]

/-- The first launch of a process cuts its first batch. -/
theorem works_launch (distinct : (state.procs.map SyncProcess.id).Nodup)
    (strides : ∀ process ∈ state.procs, process.inc = state.numSshFailsToInc)
    (once : id ∉ todo) (control : state.control = .launching (id :: todo))
    (found : state.proc? id = some old) (empty : old.batch = []) (pid : Nat) :
    Works state (((state.consume old).1.syncBatch (state.consume old).2 pid).continueWith
      .launching todo) := by
  obtain ⟨member, same⟩ := proc?_eq_some found
  obtain ⟨count, fileItr, batch, inside⟩ :=
    SyncProcess.consume_takes empty state.queue state.destination
  rw [strides old member] at fileItr batch inside
  rw [launch_eq]
  set process := (old.consume state.queue state.destination).started pid state.children.length
    with started
  have renamed : process.id = id := by simpa [started] using same
  have lookup := proc?_setProc distinct ⟨old, member, same.trans renamed.symm⟩
  rw [renamed] at lookup
  refine ⟨rfl, rfl, strides_setProc strides ?_, ?_⟩
  · simpa [started] using strides old member
  · have free : state.work.held id = none := by
      simp [work, control, Control.unloaded]
    have start : state.work.next id = some old.fileItr := by
      simp [work, found]
    have equal := work_form state (continueWith { state.setProc process with
      children := state.children ++ [Child.fork (old.consume state.queue state.destination)
        pid state.destination]
      formed := state.formed ++ [(old.id, process.batch)] } .launching todo)
      lookup (by rwa [unloaded_continueWith _ launching_isLoop]) (fun other differs => by
        rw [unloaded_continueWith _ launching_isLoop, control]
        simp [Control.unloaded, differs]) fileItr batch (by rw [same]; rfl)
    exact .single (equal ▸ .form start free inside)

section Waiting

variable (distinct : (state.procs.map SyncProcess.id).Nodup)
  (strides : ∀ process ∈ state.procs, process.inc = state.numSshFailsToInc)
  (waiting : state.control = .waiting) (member : process ∈ state.procs)

include distinct waiting member

/-- At the `wait` every listed process holds its batch. -/
theorem work_of_mem : state.work.next process.id = some process.fileItr ∧
    state.work.held process.id = some process.batch := by
  have found := (proc?_eq_some_iff distinct).mpr ⟨member, rfl⟩
  simp [work, found, waiting, Control.unloaded]

include strides

/-- A process with nothing left retires its batch and leaves. -/
theorem works_finished (done : process.done state.queue = true) :
    Works state (((state.retire process).eraseProc process.id).continueWith .relaunching
      state.sshFailProcs) := by
  obtain ⟨start, held⟩ := work_of_mem distinct waiting member
  have lookup : ∀ other, ((state.retire process).eraseProc process.id).proc? other =
      if other = process.id then none else state.proc? other :=
    proc?_eraseProc distinct process.id
  refine ⟨rfl, rfl, ?_, ?_⟩
  · intro other kept
    exact strides other (List.mem_of_mem_eraseP kept)
  · have equal : (((state.retire process).eraseProc process.id).continueWith .relaunching
        state.sshFailProcs).work =
          (state.work.retire process.id process.batch).leave process.id := by
      refine Work.ext ?_ ?_ rfl rfl
      · ext1 other
        refine (congrArg (Option.map SyncProcess.fileItr) (lookup other)).trans ?_
        show _ = Function.update state.work.next process.id none other
        by_cases here : other = process.id
        · rw [if_pos here, here, Function.update_self, Option.map_none]
        · rw [if_neg here, Function.update_of_ne here]
          rfl
      · ext1 other
        show (if other ∈ Control.unloaded _ then none
            else (((state.retire process).eraseProc process.id).proc? other).map
              SyncProcess.batch) =
          Function.update state.work.held process.id none other
        rw [unloaded_continueWith _ relaunching_isLoop, lookup]
        by_cases here : other = process.id
        · rw [if_pos here, here, Function.update_self]
          rfl
        · rw [if_neg here, Function.update_of_ne here]
          simp [work, waiting, Control.unloaded, proc?]
    have done' : state.queue.length ≤ process.fileItr := by
      simpa [SyncProcess.done] using done
    rw [equal]
    refine .tail (.single (.retire held)) (.leave start ?_ done')
    exact Function.update_self ..

/-- A process with files left retires its batch and forms the next one. -/
theorem works_more :
    Works state (((state.retire process).consume process.reset).1.continueWith .relaunching
      (process.id :: state.sshFailProcs)) := by
  obtain ⟨start, held⟩ := work_of_mem distinct waiting member
  obtain ⟨count, fileItr, batch, inside⟩ :=
    SyncProcess.consume_takes process.reset_batch state.queue state.destination
  simp only [SyncProcess.reset_fileItr, SyncProcess.reset_inc, strides process member]
    at fileItr batch inside
  set refilled := process.reset.consume state.queue state.destination with equal
  have renamed : refilled.id = process.id := by simp [equal]
  have lookup : ∀ other, ((state.retire process).setProc refilled).proc? other =
      if other = process.id then some refilled else state.proc? other := by
    rw [← renamed]
    exact proc?_setProc distinct ⟨process, member, renamed.symm⟩
  refine ⟨rfl, rfl, strides_setProc strides ?_, ?_⟩
  · show refilled.inc = state.numSshFailsToInc
    simpa [equal] using strides process member
  · have none : (((state.retire process).consume process.reset).1.continueWith .relaunching
      (process.id :: state.sshFailProcs)).control.unloaded = [] := rfl
    have formed := work_form state (((state.retire process).consume process.reset).1.continueWith
      .relaunching (process.id :: state.sshFailProcs)) lookup (by simp [none])
      (fun other _ => by rw [none, waiting]; rfl) fileItr batch (by rw [← renamed]; rfl)
    -- Retiring the old batch and forming the next one touch `held` at the same place.
    have both : ((state.work.retire process.id process.batch).form state.numSshFailsToInc
        process.id process.fileItr count) = (((state.retire process).consume
          process.reset).1.continueWith .relaunching (process.id :: state.sshFailProcs)).work := by
      rw [formed]
      refine Work.ext rfl ?_ rfl rfl
      exact Function.update_idem ..
    rw [← both]
    exact .tail (.single (.retire held)) (.form start (Function.update_self ..) inside)

end Waiting

/-- The body of the wait loop moves the workers, unless it ends the round. -/
theorem works_handled {exitCode : Nat} (distinct : (state.procs.map SyncProcess.id).Nodup)
    (strides : ∀ process ∈ state.procs, process.inc = state.numSshFailsToInc)
    (waiting : state.control = .waiting) (member : process ∈ state.procs)
    (handled : Handled state process exitCode next) (tracked : next.control.tracked = true) :
    Works state next := by
  have same : ∀ {control : Control}, control.unloaded = [] →
      control.unloaded = state.control.unloaded := by
    intro control none
    rw [none, waiting]
    rfl
  cases handled with
  | finished _ done => exact works_finished distinct strides waiting member done
  | more _ _ => exact works_more distinct strides waiting member
  | tooBig _ _ _ => cases tracked
  | fail _ _ => cases tracked
  | retry _ _ => exact .of_congr strides rfl rfl rfl (same rfl) rfl rfl
  | park _ _ => exact .of_congr strides rfl rfl rfl (same rfl) rfl rfl
  | failOver _ _ => exact .of_congr strides rfl rfl rfl (same rfl) rfl rfl

/-- The batches of a round: a partition while the round is tracked, and disjoint
batches inside the queue whatever became of the round. -/
structure Batched (state : State) : Prop where
  strides : ∀ process ∈ state.procs, process.inc = state.numSshFailsToInc
  parted : state.control.tracked = true → 0 < state.numSshFailsToInc ∧
    state.work.Partitioned state.queue.length state.numSshFailsToInc
  formed_once : (state.formed.flatMap Prod.snd).Nodup
  formed_inside : ∀ entry ∈ state.formed, ∀ position ∈ entry.2, position < state.queue.length
  children : ∀ child ∈ state.children, (child.proc, child.batch) ∈ state.formed

/-- A new round has no batches. -/
theorem batched_startRound (gone : state.outstanding = []) (nproc : Nat) (pos : 0 < nproc) :
    (state.startRound nproc pos).Batched where
  strides process member := by
    simp only [startRound, List.mem_map] at member
    obtain ⟨id, _, rfl⟩ := member
    rfl
  parted _ := by
    have distinct : ((state.startRound nproc pos).procs.map SyncProcess.id).Nodup := by
      have ids : (state.startRound nproc pos).procs.map SyncProcess.id = List.range nproc := by
        simp [startRound, Function.comp_def]
      rw [ids]
      exact List.nodup_range
    have lookup : ∀ id, (state.startRound nproc pos).proc? id =
        if id < nproc then some (SyncProcess.new state.syncer nproc pos id) else none := by
      intro id
      by_cases below : id < nproc
      · rw [if_pos below, proc?_eq_some_iff distinct]
        exact ⟨List.mem_map_of_mem (List.mem_range.mpr below), rfl⟩
      · rw [if_neg below]
        refine Option.eq_none_iff_forall_ne_some.mpr fun process found => ?_
        obtain ⟨member, rfl⟩ := proc?_eq_some found
        simp only [startRound, List.mem_map, List.mem_range] at member
        obtain ⟨id, below', rfl⟩ := member
        exact below below'
    have equal : (state.startRound nproc pos).work = Work.initial nproc := by
      refine Work.ext ?_ ?_ rfl rfl
      · ext1 id
        show ((state.startRound nproc pos).proc? id).map SyncProcess.fileItr =
          if id < nproc then some id else none
        rw [lookup]
        split <;> rfl
      · ext1 id
        show (if id ∈ List.range nproc then none else
          ((state.startRound nproc pos).proc? id).map SyncProcess.batch) = none
        split
        · rfl
        · next above =>
          rw [lookup, if_neg (by simpa using above)]
          rfl
    refine ⟨pos, ?_⟩
    rw [equal]
    exact Work.partitioned_initial pos
  formed_once := List.nodup_nil
  formed_inside entry member := by cases member
  children child member := by simp [startRound, gone] at member

/-- A step that moves the workers keeps the partition. -/
theorem Batched.works (batched : state.Batched) (works : Works state next)
    (tracked : state.control.tracked = true)
    (children : ∀ child ∈ next.children, (child.proc, child.batch) ∈ next.formed) :
    next.Batched := by
  obtain ⟨pos, parted⟩ := batched.parted tracked
  have after := parted.of_moves pos works.moves
  refine ⟨works.strides, fun _ => ?_, after.disjoint, ?_, children⟩
  · rw [works.count, works.queue]
    exact ⟨pos, after⟩
  · intro entry member position inEntry
    rw [works.queue]
    exact (after.inside entry member position inEntry).1

/-- The batches stay what they are when a round is left. -/
theorem Batched.stop (batched : state.Batched) {control : Control}
    (untracked : control.tracked = false) {procs : List SyncProcess}
    (subset : ∀ process ∈ procs, process ∈ state.procs) :
    Batched { state with procs := procs, control := control } where
  strides process member := batched.strides process (subset process member)
  parted tracked := by simp [untracked] at tracked
  formed_once := batched.formed_once
  formed_inside := batched.formed_inside
  children := batched.children

/-- Children that are only carried on keep their batches. -/
theorem Batched.carry (batched : state.Batched) {children : List Child}
    (carries : Carries Kept state.children children) (snapshot : Bool) :
    Batched { state with children := children, snapshot := snapshot } where
  strides := batched.strides
  parted := batched.parted
  formed_once := batched.formed_once
  formed_inside := batched.formed_inside
  children child member := by
    obtain ⟨old, earlier, kept⟩ := carries.origin_mem member
    rw [kept.proc, kept.batch]
    exact batched.children old earlier

theorem Batched.reap (batched : state.Batched) {index : Nat} {child : Child}
    {status : WaitStatus} (found : state.children[index]? = some child)
    (ended : child.phase = .zombie status) : (state.reap index child status).Batched :=
  batched.carry (carries_set Kept.refl found (kept_reaped ended)) state.snapshot

/-- The body of the wait loop keeps the batches. -/
theorem Batched.handled {exitCode : Nat} (batched : state.Batched)
    (distinct : (state.procs.map SyncProcess.id).Nodup) (waiting : state.control = .waiting)
    (member : process ∈ state.procs) (handled : Handled state process exitCode next) :
    next.Batched := by
  have works := works_handled distinct batched.strides waiting member handled
  have tracked : state.control.tracked = true := by rw [waiting]; rfl
  cases handled with
  | tooBig _ _ _ => exact batched.stop rfl fun _ kept => kept
  | fail _ _ => exact batched.stop rfl fun _ kept => kept
  | finished _ _ =>
      refine batched.works (works ?_) tracked batched.children
      exact read_continueWith Control.tracked _ .relaunching state.sshFailProcs rfl rfl
  | more _ _ =>
      refine batched.works (works rfl) tracked fun child old => ?_
      exact List.mem_append_left _ (batched.children child old)
  | retry _ _ => exact batched.works (works rfl) tracked batched.children
  | park _ _ => exact batched.works (works rfl) tracked batched.children
  | failOver _ _ => exact batched.works (works rfl) tracked batched.children

/-- A launch hands the batch of a process to a child. -/
theorem batched_children {child : Child} {formed : List (Nat × List Nat)}
    (batched : state.Batched) (grows : ∀ entry ∈ state.formed, entry ∈ formed)
    (new : (child.proc, child.batch) ∈ formed) :
    ∀ other ∈ state.children ++ [child], (other.proc, other.batch) ∈ formed := by
  intro other member
  rcases List.mem_append.mp member with old | added
  · exact grows _ (batched.children other old)
  · rw [List.mem_singleton.mp added]
    exact new

/-- Every transition keeps the batches of the round. -/
theorem Batched.of_move {choice : Choice} (batched : state.Batched)
    (accounted : state.Accounted) (addressed : state.Addressed)
    (move : Move capacity state choice next) : next.Batched := by
  cases move with
  | sync idle perm ordered =>
      rw [launchProcs]
      apply batched_startRound
      exact accounted.outstanding_eq_nil (by rw [idle]; rfl)
  | launch control found forkable =>
      obtain ⟨member, same⟩ := proc?_eq_some found
      have loaded := addressed.procs (by rw [control]; rfl)
      have once := loaded.once.1
      rw [control] at once
      have fresh := loaded.unloaded _ member (by rw [control, same]; exact List.mem_cons_self)
      have works := works_launch accounted.distinct batched.strides
        (List.nodup_cons.mp once).1 control found fresh.batch
      refine batched.works (works _) (by rw [control]; rfl) ?_
      rw [launch_eq]
      refine batched_children batched (fun _ old => List.mem_append_left _ old) ?_
      exact List.mem_append_right _ (by simp [Child.fork])
  | @relaunch id todo process pid control found forkable =>
      have tracked : state.control.tracked = true := by rw [control]; rfl
      have works := works_relaunch (process.started pid state.children.length)
        accounted.distinct batched.strides relaunching_isLoop control (fun _ => rfl) found
      refine batched.works (works rfl rfl rfl rfl _) tracked ?_
      refine batched_children batched (fun _ old => old) ?_
      obtain ⟨member, same⟩ := proc?_eq_some found
      refine (batched.parted tracked).2.held_formed _ _ ?_
      simp [work, control, Control.unloaded, same, found, Child.fork]
  | @failOver id todo process pid control found forkable =>
      have tracked : state.control.tracked = true := by rw [control]; rfl
      have works := works_relaunch ((process.changeDestination state.destination).started pid
        state.children.length) accounted.distinct batched.strides failingOver_isLoop control
        (fun _ => rfl) found
      refine batched.works (works (by simp) (by simp) (by simp) (by simp) _) tracked ?_
      refine batched_children batched (fun _ old => old) ?_
      obtain ⟨member, same⟩ := proc?_eq_some found
      refine (batched.parted tracked).2.held_formed _ _ ?_
      simp [work, control, Control.unloaded, same, found, Child.fork]
  | dangling _ _ => exact batched.stop rfl fun _ kept => kept
  | forkFails =>
      exact (batched.carry (carries_refl Kept.refl _) false).stop rfl fun _ kept => kept
  | stray waiting found ended unknown => exact batched.reap found ended
  | returned waiting found ended owner handled =>
      exact (batched.reap found ended).handled accounted.distinct waiting
        (List.mem_of_find?_eq_some owner) handled
  | reap reaping found ended => exact batched.reap found ended
  | noneLeft _ _ => exact batched.stop rfl fun _ kept => kept
  | allReaped _ _ => exact batched.stop rfl fun _ kept => by cases kept
  | kill killing =>
      exact (batched.carry (carries_map (fun child =>
        kept_of_continues (continues_sendSigint child))) state.snapshot).stop rfl
        fun _ kept => kept
  | killed _ => exact batched.stop rfl fun _ kept => kept
  | success returned =>
      have strides := batched.strides
      refine batched.works ?_ (by rw [returned]; rfl) batched.children
      exact .of_congr strides rfl rfl rfl (by rw [returned]; rfl) rfl rfl
  | newRound returned room =>
      rw [launchProcs]
      apply batched_startRound
      exact accounted.outstanding_eq_nil (by rw [returned]; rfl)
  | failure _ _ =>
      exact (batched.carry (carries_refl Kept.refl _) false).stop rfl fun _ kept => kept
  | deleted _ =>
      exact (batched.carry (carries_refl Kept.refl _) false).stop rfl fun _ kept => kept
  | notDeleted _ => exact batched.stop rfl fun _ kept => kept
  | child found taken =>
      exact batched.carry (carries_set Kept.refl found
        (kept_of_continues (Child.continues_of_step taken))) _
  | signal found live =>
      exact batched.carry (carries_set Kept.refl found
        (kept_of_continues (Child.continues_of_signal live _))) state.snapshot

/-- The batches of a round are in order in every reachable state. -/
theorem batched_invariant {guard : Machine.Guard State Choice} :
    (syncMachine capacity).Invariant guard Batched where
  initial := by
    rintro state ⟨tokenize, argMax, envpSize, config, rfl⟩
    constructor <;> simp [State.start, Control.tracked]
  preserved _ _ _ reachable batched _ taken :=
    batched.of_move (accounted_invariant.of_reachable reachable)
      (addressed_invariant.of_reachable reachable) (moves_of_step taken)

/-- A launch hands out the batch its process formed last, which it may just have
formed. -/
theorem latest_of_fork {pid : Nat} {child : Child} (batched : state.Batched)
    (taken : state.step capacity (.fork pid) = some next)
    (added : next.children = state.children ++ [child]) :
    Work.latest next.formed child.proc = some child.batch ∧
      (next.formed = state.formed ∨
        next.formed = state.formed ++ [(child.proc, child.batch)]) := by
  have held : ∀ id process, state.proc? id = some process →
      (∃ todo, state.control = .relaunching todo ∨ state.control = .failingOver todo) →
      Work.latest state.formed process.id = some process.batch := by
    rintro id process found ⟨todo, control⟩
    have tracked : state.control.tracked = true ∧ state.control.unloaded = [] := by
      rcases control with control | control <;> rw [control] <;> exact ⟨rfl, rfl⟩
    obtain ⟨member, rfl⟩ := proc?_eq_some found
    refine (batched.parted tracked.1).2.current _ _ ?_
    simp [work, tracked.2, found]
  cases moves_of_step taken with
  | @launch id todo process _ control found forkable =>
      rw [launch_eq] at added ⊢
      have equal : Child.fork (process.consume state.queue state.destination) pid
          state.destination = child := by
        simpa [continueWith] using added
      subst equal
      obtain ⟨_, same⟩ := proc?_eq_some found
      refine ⟨?_, .inr ?_⟩ <;> simp [continueWith, Child.fork]
  | @relaunch id todo process _ control found forkable =>
      have equal : Child.fork process pid state.destination = child := by
        simpa [continueWith, syncBatch] using added
      subst equal
      exact ⟨held id process found ⟨_, .inl control⟩, .inl rfl⟩
  | @failOver id todo process _ control found forkable =>
      have equal : Child.fork (process.changeDestination state.destination) pid
          state.destination = child := by
        simpa [continueWith, syncBatch] using added
      subst equal
      refine ⟨?_, .inl rfl⟩
      show Work.latest state.formed (process.changeDestination state.destination).id =
        some (process.changeDestination state.destination).batch
      simpa using held id process found ⟨_, .inr control⟩
  | dangling _ _ => simp at added

/-- No file is in two batches of a round. A launch carries the files of the batch
that its process formed last, in the order of the queue, so launches that share a
file carry the same list. And when the round succeeds, every file is in exactly
one of the batches retired through the exit-code-0 branch. -/
theorem batches_of_reachable
    (reachable : (syncMachine capacity).Reachable Machine.unguarded state) :
    ((∀ entry ∈ state.formed, entry.2.Nodup ∧
        ∀ position ∈ entry.2, position < state.queue.length) ∧
      state.formed.Pairwise fun first second => first.2.Disjoint second.2) ∧
    (∀ pid next child, state.step capacity (.fork pid) = some next →
      next.children = state.children ++ [child] →
      Work.latest next.formed child.proc = some child.batch ∧
        (next.formed = state.formed ∨
          next.formed = state.formed ++ [(child.proc, child.batch)]) ∧
        child.argv = next.commandLine child.batch next.destination) ∧
    (∀ first ∈ state.children, ∀ second ∈ state.children,
      ∀ position ∈ first.batch, position ∈ second.batch →
        first.proc = second.proc ∧ first.batch = second.batch) ∧
    (state.control = .returned .syncSuccess →
      (∀ entry ∈ state.retired, entry ∈ state.formed) ∧
        ∀ position < state.queue.length,
          (state.retired.flatMap Prod.snd).count position = 1) := by
  have batched := batched_invariant.of_reachable reachable
  have accounted := accounted_invariant.of_reachable reachable
  refine ⟨⟨?_, ?_⟩, ?_, ?_, ?_⟩
  · intro entry member
    exact ⟨(List.nodup_flatMap.mp batched.formed_once).1 entry member,
      batched.formed_inside entry member⟩
  · exact (List.nodup_flatMap.mp batched.formed_once).2
  · intro pid next child taken added
    have after := addressed_invariant.of_reachable (reachable_step reachable trivial taken)
    obtain ⟨latest, formed⟩ := latest_of_fork batched taken added
    exact ⟨latest, formed, commandLine_of_fork after taken added⟩
  · intro first member second member' position inFirst inSecond
    have equal := Work.eq_of_shared batched.formed_once (batched.children first member)
      (batched.children second member') inFirst inSecond
    exact ⟨congrArg Prod.fst equal, congrArg Prod.snd equal⟩
  · intro returned
    obtain ⟨_, parted⟩ := batched.parted (by rw [returned]; rfl)
    refine ⟨parted.retired_formed, fun position below => ?_⟩
    refine parted.complete (fun id => ?_) below
    have gone := accounted.rest (by rw [returned]; rfl)
    simp [work, proc?, gone]

/-- One process is parked, the other finishes, and the parked one succeeds on its
second attempt. -/
def retryRun : List Choice :=
  let files := [plainFile "/s/./a".toList 1, plainFile "/s/./b".toList 2,
    plainFile "/s/./c".toList 3]
  ([.sync files files, .fork 11, .fork 12] : List Choice) ++ childExits 0 sshFail ++
    ([.wait 0 true] : List Choice) ++ childExits 1 0 ++
    ([.wait 1 true, .fork 13] : List Choice) ++ childExits 2 0 ++ ([.wait 2 true] : List Choice)

theorem batches_after_retry :
    ∃ state : State, state.control = .returned .syncSuccess ∧
      state.retired = [(1, [1]), (0, [0, 2])] ∧
      ∀ position < state.queue.length, (state.retired.flatMap Prod.snd).count position = 1 := by
  have executed : ((syncMachine 4).run Machine.unguarded
      (rsyncDaemon 2 "a:b".toList) retryRun).any (fun state =>
        decide (state.control = .returned .syncSuccess ∧
          state.retired = [(1, [1]), (0, [0, 2])])) = true := by
    decide +kernel
  obtain ⟨state, reachable, ended⟩ := Machine.exists_of_run (rsyncDaemon_initial 2 _) executed
  obtain ⟨returned, retired⟩ := of_decide_eq_true ended
  have batches := batches_of_reachable reachable
  exact ⟨state, returned, retired, (batches.2.2.2 returned).2⟩

end State

end CephGeoRep
